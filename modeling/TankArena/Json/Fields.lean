import TankArena.Json.Reader

/-!
# Typed readings of JSON values

A record of named fields is written as an object or as an array of its fields in order.  In an
object the members may come in any order, members with other names are skipped, and a field that
occurs twice is refused.  In an array the fields may stop early, which leaves the others absent.

Whole numbers are read from digits alone: `1.0`, `1e0` and `-0` are no whole numbers.
-/

namespace TankArena.Json

/-! ## 1. Plain values -/

/-- The truth value that a value is. -/
def bool? : Json → Option Bool
  | .bool b => some b
  | _ => none

/-- The text that a value is. -/
def string? : Json → Option String
  | .string q => q.text?
  | _ => none

/-- The double that a value is. -/
def float? : Json → Option Float
  | .number n => n.float?
  | _ => none

/-- The whole number below a bound that a value is. -/
def natBelow? (bound : Nat) : Json → Option Nat
  | .number n => n.natural?.filter fun k => decide (k < bound)
  | _ => none

/-- The 8-bit word that a value is. -/
def uint8? (v : Json) : Option UInt8 := (v.natBelow? UInt8.size).map UInt8.ofNat

/-- The 32-bit word that a value is. -/
def uint32? (v : Json) : Option UInt32 := (v.natBelow? UInt32.size).map UInt32.ofNat

/-- The items of an array, each read in the same way. -/
def list? {α : Type} (item? : Json → Option α) : Json → Option (List α)
  | .array items => items.mapM item?
  | _ => none

/-! ## 2. Records -/

/-- The value of the only member with a name: `none` if there are several, `some none` if there
is no such member. -/
def only? (members : List (Quoted × Json)) (name : String) : Option (Option Json) :=
  match members.filter fun m => m.1.text? == some name with
  | [] => some none
  | [m] => some (some m.2)
  | _ => none

/-- The values of named fields, `none` for each that is absent. -/
def fields? (names : List String) : Json → Option (List (Option Json))
  | .object members =>
    if members.all fun m => m.1.text?.isSome then names.mapM (only? members) else none
  | .array items =>
    if items.length ≤ names.length then
      some (items.map some ++ List.replicate (names.length - items.length) none)
    else none
  | _ => none

/-- The values of named fields, all of which must be there. -/
def allFields? (names : List String) (v : Json) : Option (List Json) :=
  (v.fields? names).bind fun values => values.mapM id

/-- One of several names: the name as a text, or an object whose only member has the name and the
value `null`. -/
def oneOf? {α : Type} (name : α → String) (choices : List α) : Json → Option α
  | .string q => choices.find? fun a => q.text? == some (name a)
  | .object [(q, .null)] => choices.find? fun a => q.text? == some (name a)
  | _ => none

/-! ## 3. Values that can be built whole -/

/-- Whether a value can be built in full: it nests at most `depth` containers, its numbers are
within the doubles and its quoted texts and names say something. -/
def buildable : Nat → Json → Bool
  | _, .null => true
  | _, .bool _ => true
  | _, .number n => n.float?.isSome
  | _, .string q => q.text?.isSome
  | 0, .array _ => false
  | 0, .object _ => false
  | depth + 1, .array items => items.all (buildable depth)
  | depth + 1, .object members =>
    members.all fun m => m.1.text?.isSome && buildable depth m.2

/-- The most containers that a value which is built in full may nest. -/
def maxDepth : Nat := 127

end TankArena.Json
