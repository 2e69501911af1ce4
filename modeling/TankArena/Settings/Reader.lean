import TankArena.Settings.Basic
import TankArena.Text.Utf8
import TankArena.Wire.Number

/-!
# Reading settings

Settings are one JSON value: an object of the six fields, or an array of them in order.  A field
that is absent has its default.  A text that is no such value is malformed; one that is can still
be refused for its content.
-/

namespace TankArena

/-! ## 1. Values -/

/-- The wall that a value of the settings gives. -/
def Segment.ofJson? (v : Json) : Option (Segment Float) := do
  match ← v.allFields? ["p1", "p2"] with
  | [p1, p2] => return ⟨← Vec.ofJson? p1, ← Vec.ofJson? p2⟩
  | _ => none

namespace Settings

/-- The reading of a field that may be absent. -/
def orDefault {α : Type} (standard : α) (read? : Json → Option α) : Option Json → Option α
  | none => some standard
  | some v => read? v

/-- The settings that a value is, accepted or not. -/
def ofJson? (v : Json) : Option (Settings Float) := do
  let base : Settings Float := {}
  match ← v.fields?
      ["universe_size", "ms_per_frame", "fire_cooldown_ms", "respawn_rate_ms", "max_powerups",
        "walls"] with
  | [size, frame, cooldown, respawn, powerUps, walls] =>
    return {
      universeSize := ← orDefault base.universeSize (Json.natBelow? UInt32.size) size
      msPerFrame := ← orDefault base.msPerFrame (Json.natBelow? UInt64.size) frame
      fireCooldownMs := ← orDefault base.fireCooldownMs (Json.natBelow? UInt64.size) cooldown
      respawnRateMs := ← orDefault base.respawnRateMs (Json.natBelow? UInt64.size) respawn
      maxPowerUps := ← orDefault base.maxPowerUps (Json.natBelow? UInt64.size) powerUps
      walls := ← orDefault base.walls (Json.list? Segment.ofJson?) walls }
  | _ => none

/-! ## 2. Failures -/

/-- Why a file cannot be read as text. -/
inductive FileFault where
  /-- There is no such file. -/
  | missing
  /-- The path names a directory. -/
  | directory
  /-- The path, or a name in it, is too long. -/
  | tooLong
  /-- The path holds the character that ends paths. -/
  | nul
  /-- The bytes are no UTF-8. -/
  | notText
  deriving Repr, DecidableEq

/-- Why there are no settings. -/
inductive Error where
  /-- The file at this path cannot be read. -/
  | unreadable (path : String) (fault : FileFault)
  /-- The text is not the JSON value of any settings. -/
  | malformed
  /-- The settings are not accepted. -/
  | invalid (fault : Fault Float)
  deriving Repr

namespace FileFault

/-- A file fault in words. -/
def message : FileFault → String
  | .missing => "No such file or directory (os error 2)"
  | .directory => "Is a directory (os error 21)"
  | .tooLong => "File name too long (os error 36)"
  | .nul => "file name contained an unexpected NUL byte"
  | .notText => "stream did not contain valid UTF-8"

/-- What a look at a path finds where no file exists.  A path that only says where to start from
is a directory; otherwise its first name decides, since nothing is looked up behind it. -/
def withoutFiles (path : String) : FileFault :=
  let start := ["", ".", ".."]
  if path.toList.contains '\x00' then .nul
  else if path.isEmpty then .missing
  else if 4096 ≤ path.utf8ByteSize then .tooLong
  else match (path.splitOn "/").find? fun name => !start.contains name with
    | none => .directory
    | some name => if 255 < name.utf8ByteSize then .tooLong else .missing

end FileFault

/-- A point in a message. -/
def pointText (p : Vec Float) : String :=
  "(" ++ Layout.proseText p.x ++ ", " ++ Layout.proseText p.y ++ ")"

/-- A fault in words. -/
def Fault.message : Fault Float → String
  | .noSize => "universe_size must be > 0"
  | .noTick => "ms_per_frame must be > 0"
  | .slanted index wall =>
    "wall " ++ toString index ++ " is not axis-aligned: " ++ pointText wall.p1 ++ " - " ++
      pointText wall.p2

/-- A failure in words. -/
def Error.message : Error → String
  | .unreadable path fault => "failed to read settings file " ++ path ++ ": " ++ fault.message
  | .malformed => "failed to parse settings"
  | .invalid fault => "invalid settings: " ++ fault.message

/-! ## 3. Texts and files -/

/-- The settings, if they are accepted. -/
def accept (s : Settings Float) : Except Error (Settings Float) :=
  match s.fault? with
  | none => .ok s
  | some fault => .error (.invalid fault)

/-- The accepted settings that a value is. -/
def ofJson (v : Json) : Except Error (Settings Float) :=
  match ofJson? v with
  | none => .error .malformed
  | some s => s.accept

/-- The accepted settings of a text. -/
def ofText (text : String) : Except Error (Settings Float) :=
  match Json.parse? text with
  | none => .error .malformed
  | some v => ofJson v

/-- The accepted settings of a file: what a look at its path found, bytes or a fault. -/
def ofFile (path : String) : Except FileFault (List UInt8) → Except Error (Settings Float)
  | .error fault => .error (.unreadable path fault)
  | .ok bytes =>
    match Utf8.decode? bytes with
    | none => .error (.unreadable path .notText)
    | some text => ofText text

end Settings

end TankArena
