import TankArena.Decimal.Digit

/-!
# Numbers as they are written

A `Numeral` keeps every sign, digit and mark of a written number, so `text` and `scan` are
inverse to each other on the numbers of the grammar

    [-] whole [. fraction] [(e|E) [+|-] exponent]

where `whole` is `0` or starts with another digit.  What a numeral means is a second question:
`natural?` for whole numbers, `float?` for doubles.
-/

namespace TankArena

/-- The exponent of a written number: its mark, its sign if one is written, its digits. -/
structure Exponent where
  /-- Whether the mark is `E`. -/
  capital : Bool
  /-- The written sign: `some true` for a minus, `some false` for a plus. -/
  sign : Option Bool
  digits : List Digit
  deriving Repr, DecidableEq

/-- A written number. -/
structure Numeral where
  negative : Bool
  whole : List Digit
  /-- The digits after the point; without digits there is no point. -/
  fraction : List Digit
  exponent : Option Exponent
  deriving Repr, DecidableEq

namespace Exponent

/-- The characters of an exponent. -/
def text (e : Exponent) : List Char :=
  (if e.capital then 'E' else 'e') ::
    (match e.sign with
      | none => []
      | some true => ['-']
      | some false => ['+']) ++ e.digits.map Digit.char

/-- The power of ten that an exponent stands for. -/
def value (e : Exponent) : Int :=
  if e.sign = some true then -(Digit.value e.digits : Int) else Digit.value e.digits

/-- The exponent that a text starts with, after its mark, and the rest. -/
def scan? (capital : Bool) (cs : List Char) : Option (Exponent × List Char) :=
  let (sign, cs) := match cs with
    | '+' :: rest => (some false, rest)
    | '-' :: rest => (some true, rest)
    | _ => (none, cs)
  let (ds, rest) := Digit.span cs
  if ds.isEmpty then none else some (⟨capital, sign, ds⟩, rest)

end Exponent

namespace Numeral

/-! ## 1. Text -/

/-- The characters of a numeral. -/
def text (n : Numeral) : List Char :=
  (if n.negative then ['-'] else []) ++ n.whole.map Digit.char ++
    (if n.fraction.isEmpty then [] else '.' :: n.fraction.map Digit.char) ++
    (match n.exponent with
      | none => []
      | some e => e.text)

/-- The sign that a text starts with, if it has one, and the rest. -/
def scanSign : List Char → Bool × List Char
  | '-' :: rest => (true, rest)
  | cs => (false, cs)

/-- The digits that a text starts with, at least one, and the rest. -/
def scanDigits? (cs : List Char) : Option (List Digit × List Char) :=
  let (ds, rest) := Digit.span cs
  if ds.isEmpty then none else some (ds, rest)

/-- The digits before a point, and the rest; a leading zero stands alone. -/
def scanWhole? : List Char → Option (List Digit × List Char)
  | '0' :: rest => some ([Digit.zero], rest)
  | cs => scanDigits? cs

/-- The digits after a point, if there is one, and the rest. -/
def scanFraction? : List Char → Option (List Digit × List Char)
  | '.' :: rest => scanDigits? rest
  | cs => some ([], cs)

/-- The exponent, if there is one, and the rest. -/
def scanExponent? : List Char → Option (Option Exponent × List Char)
  | 'e' :: rest => (Exponent.scan? false rest).map fun (e, rest) => (some e, rest)
  | 'E' :: rest => (Exponent.scan? true rest).map fun (e, rest) => (some e, rest)
  | cs => some (none, cs)

/-- The numeral that a text starts with, and the rest; as much as possible is taken. -/
def scan? (cs : List Char) : Option (Numeral × List Char) := do
  let (negative, cs) := scanSign cs
  let (whole, cs) ← scanWhole? cs
  let (fraction, cs) ← scanFraction? cs
  let (exponent, cs) ← scanExponent? cs
  return (⟨negative, whole, fraction, exponent⟩, cs)

/-! ## 2. Meaning -/

/-- The numeral of a whole number. -/
def ofNat (n : Nat) : Numeral := ⟨false, Digit.digits n, [], none⟩

/-- The whole number that is written without sign, point and exponent. -/
def natural? (n : Numeral) : Option Nat :=
  if n.negative || !n.fraction.isEmpty || n.exponent.isSome then none
  else some (Digit.value n.whole)

/-! ## 3. Doubles

A numeral is read in double arithmetic: as many of its digits as fit into 64 bits make a whole
number, and that is scaled by a power of ten.  Each of the steps rounds, so the double read can
be a neighbour of the nearest one. -/

/-- The significand after taking further digits while it stays below `2 ^ 64`, and how many digits
were not taken. -/
def fill (significand : Nat) : List Digit → Nat × Nat
  | [] => (significand, 0)
  | d :: ds =>
    let next := 10 * significand + d.val
    if next < UInt64.size then fill next ds else (significand, ds.length + 1)

/-- The digits of the numeral as a whole number and the power of ten that goes with it, its written
exponent apart.  Digits before the point that are not taken still count as powers of ten. -/
def significand (n : Numeral) : Nat × Int :=
  let (whole, above) := fill 0 n.whole
  let (all, beyond) := fill whole n.fraction
  (all, (above : Int) - ((n.fraction.length - beyond : Nat) : Int))

/-- A power of ten, up to `10 ^ 308`. -/
def powerOfTen (k : Nat) : Float := Float.ofScientific 1 false k

/-- A double times a power of ten, or divided by one in one or two steps; `none` beyond the largest
double. -/
def scaled? (f : Float) (power : Int) : Option Float :=
  if 308 < power then if f == 0.0 then some f else none
  else if 0 ≤ power then
    let r := f * powerOfTen power.toNat
    if r.isInf then none else some r
  else
    let k := power.natAbs
    if k ≤ 308 then some (f / powerOfTen k)
    else some (f / powerOfTen 308 / powerOfTen (min (k - 308) 308))

/-- The double that the absolute value of a numeral reads as.  An exponent from `2 ^ 31` on is not
worked out: the number is too large for a double, or nothing. -/
def magnitude? (n : Numeral) : Option Float :=
  let (digits, power) := n.significand
  match n.exponent with
  | none => scaled? (UInt64.ofNat digits).toFloat power
  | some e =>
    if twoTo 31 ≤ Digit.value e.digits then
      if digits ≠ 0 ∧ e.sign ≠ some true then none else some 0.0
    else scaled? (UInt64.ofNat digits).toFloat (power + e.value)

/-- The double that a numeral reads as; there is none for a number beyond the largest double. -/
def float? (n : Numeral) : Option Float :=
  n.magnitude?.map fun m => if n.negative then -m else m

end Numeral

end TankArena
