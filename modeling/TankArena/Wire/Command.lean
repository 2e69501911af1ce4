import TankArena.Command
import TankArena.Text.Blank
import TankArena.Wire.Number

/-!
# Commands on the wire

A command is one line: an object of the members `moving`, `fire` and `tdir`.  Clients are not
trusted: a frame that is not such an object is no command at all.
-/

namespace TankArena

/-! ## 1. Names -/

/-- The name of a kind of driving. -/
def Drive.name : Drive → String
  | .hold => "none"
  | .up => "up"
  | .down => "down"
  | .left => "left"
  | .right => "right"

/-- The name of a kind of fire. -/
def Trigger.name : Trigger → String
  | .idle => "none"
  | .main => "main"
  | .alt => "alt"

/-- The kind of driving that a value names. -/
def Drive.ofJson? : Json → Option Drive := Json.oneOf? Drive.name Drive.all

/-- The kind of fire that a value names. -/
def Trigger.ofJson? : Json → Option Trigger := Json.oneOf? Trigger.name Trigger.all

namespace Command

/-! ## 2. Values -/

/-- A command as a value. -/
def toJson (c : Command Float) : Json :=
  .ofMembers
    [("moving", .ofString c.drive.name), ("fire", .ofString c.trigger.name),
      ("tdir", c.aim.toJson)]

/-- The command that a value is. -/
def ofJson? (v : Json) : Option (Command Float) := do
  match ← v.allFields? ["moving", "fire", "tdir"] with
  | [moving, fire, tdir] =>
    return ⟨← Drive.ofJson? moving, ← Trigger.ofJson? fire, ← Vec.ofJson? tdir⟩
  | _ => none

/-! ## 3. Frames -/

/-- The command of a frame, if it is one.  White space around it does not matter; it has to be
written as an object. -/
def decode? (frame : String) : Option (Command Float) :=
  let cs := Text.trimChars frame.toList
  if cs.head? = some '\x7b' then (Json.ofChars? cs).bind ofJson? else none

/-- A command as a line, its line feed included. -/
def encode (c : Command Float) : String := String.ofList (c.toJson.text ++ ['\n'])

end Command

end TankArena
