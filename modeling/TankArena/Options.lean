import TankArena.Settings.Reader

/-!
# The command line

Two options, each with its value behind it: the file of the settings, and a length of the tick
that takes the place of the one in the file.  Settings with another tick are looked at again
before they are used.
-/

namespace TankArena

/-- What a command line asks for. -/
structure Options where
  settingsPath : String := "settings.json"
  tickMs : Option Nat := none
  deriving Repr, DecidableEq

namespace Options

/-- Why a command line is not understood. -/
inductive Error where
  | unknown (argument : String)
  | noValue (option : String)
  | notNumber (option value : String)
  deriving Repr, DecidableEq

/-- An error in words. -/
def Error.message : Error → String
  | .unknown argument => "unexpected argument '" ++ argument ++ "'"
  | .noValue option => "a value is required for '" ++ option ++ "'"
  | .notNumber option value => "invalid value '" ++ value ++ "' for '" ++ option ++ "'"

/-- The 64-bit number that a text of digits writes; a plus sign may stand before them. -/
def number? (s : String) : Option Nat :=
  let cs := s.toList
  match Digit.span (if cs.head? = some '+' then cs.tail else cs) with
  | (d :: ds, []) =>
    if Digit.value (d :: ds) < UInt64.size then some (Digit.value (d :: ds)) else none
  | _ => none

/-- The options after the arguments of a command line. -/
def parse : Options → List String → Except Error Options
  | o, [] => .ok o
  | o, name :: rest =>
    if name = "-s" ∨ name = "--settings" then
      match rest with
      | [] => .error (.noValue name)
      | path :: rest => parse { o with settingsPath := path } rest
    else if name = "-t" ∨ name = "--tick-ms" then
      match rest with
      | [] => .error (.noValue name)
      | value :: rest =>
        match number? value with
        | none => .error (.notNumber name value)
        | some ms => parse { o with tickMs := some ms } rest
    else .error (.unknown name)

/-- The settings of a file with the tick of the command line. -/
def override (o : Options) (settings : Settings Float) :
    Except Settings.Error (Settings Float) :=
  match o.tickMs with
  | none => .ok settings
  | some ms => { settings with msPerFrame := ms }.accept

/-- The settings in one line. -/
def summary (o : Options) (settings : Settings Float) : String :=
  "Loaded " ++ o.settingsPath ++ ": world " ++ toString settings.universeSize ++ ", " ++
    toString settings.walls.length ++ " walls, " ++ toString settings.maxPowerUps ++
    " power-ups, " ++ toString settings.msPerFrame ++ "ms ticks"

end Options

end TankArena
