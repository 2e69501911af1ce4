import TankArena.Decimal.Shortest
import TankArena.Decimal.Numeral

/-!
# Laying out a double as a numeral

The digits of a double are chosen by `Dyadic.shortest`; how they are laid out is a decision of
the text they are written into, collected in one `Layout`.
-/

namespace TankArena

/-- How the digits of a number are laid out. -/
structure Layout where
  /-- The places of the point, from and to, that are written without an exponent; `none` if all
  are. -/
  positional : Option (Int × Int)
  /-- Whether a whole number keeps the fraction `.0`. -/
  pointZero : Bool
  /-- Which of two equally near shortest decimals is taken. -/
  tie : Tie

namespace Layout

/-- Whether a number whose point stands at this place is written without an exponent. -/
def isPositional (layout : Layout) (point : Int) : Bool :=
  match layout.positional with
  | none => true
  | some (least, greatest) => decide (least ≤ point) && decide (point ≤ greatest)

/-- The number `0.d₁d₂… · 10 ^ point` written without an exponent. -/
def positionalNumeral (layout : Layout) (negative : Bool) (ds : List Digit) (point : Int) :
    Numeral :=
  let whole :=
    if point ≤ 0 then [Digit.zero]
    else ds.take point.toNat ++ List.replicate (point.toNat - ds.length) Digit.zero
  let fraction :=
    if point ≤ 0 then List.replicate (-point).toNat Digit.zero ++ ds else ds.drop point.toNat
  ⟨negative, whole, if fraction.isEmpty && layout.pointZero then [Digit.zero] else fraction, none⟩

/-- The number `0.d₁d₂… · 10 ^ point` written with one digit before the point and a signed
exponent. -/
def exponentNumeral (negative : Bool) (ds : List Digit) (point : Int) : Numeral :=
  ⟨negative, ds.take 1, ds.drop 1,
    some ⟨false, some (decide (point < 1)), Digit.digits (point - 1).natAbs⟩⟩

/-- The numeral of a finite double. -/
def numeral (layout : Layout) (x : Float) : Numeral :=
  let bits := x.toBits
  let negative := decide (twoTo 63 ≤ bits.toNat)
  let v := Dyadic.ofBits bits
  let (ds, point) := if v.mantissa = 0 then ([Digit.zero], 1) else (v.shortest layout.tie).significant
  if layout.isPositional point then layout.positionalNumeral negative ds point
  else exponentNumeral negative ds point

/-- Numbers in data: positional from `0.00001` up to sixteen whole digits, always with a point or
an exponent. -/
def data : Layout := ⟨some (-4, 16), true, .even⟩

/-- Numbers in messages: never an exponent, and no point on whole numbers. -/
def prose : Layout := ⟨none, false, .up⟩

/-- A double in a message; what is not finite has a name. -/
def proseText (x : Float) : String :=
  if x.isFinite then String.ofList (prose.numeral x).text
  else if x.isNaN then "NaN"
  else if x < 0.0 then "-inf"
  else "inf"

end Layout

end TankArena
