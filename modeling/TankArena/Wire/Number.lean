import TankArena.Decimal.Layout
import TankArena.Json.Fields
import TankArena.Vec

/-!
# Numbers and vectors on the wire

A double is written with its shortest digits; what is not finite is written as `null`, which reads
as no number.  A vector is an object of its two components, or an array of them when read.
-/

namespace TankArena

/-- A double as a value. -/
def Json.ofFloat (x : Float) : Json :=
  if x.isFinite then .number (Layout.data.numeral x) else .null

/-- A truth value as a value. -/
def Json.ofBool (b : Bool) : Json := .bool b

namespace Vec

/-- A vector as a value. -/
def toJson (v : Vec Float) : Json := .ofMembers [("x", .ofFloat v.x), ("y", .ofFloat v.y)]

/-- The vector that a value is. -/
def ofJson? (v : Json) : Option (Vec Float) := do
  match ← v.allFields? ["x", "y"] with
  | [x, y] => return ⟨← x.float?, ← y.float?⟩
  | _ => none

end Vec

end TankArena
