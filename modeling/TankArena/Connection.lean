import TankArena.Framer
import TankArena.Server
import TankArena.Wire.Command

/-!
# One connection

The first frame of a connection is the name of the player; every later frame is a command or
nothing.  Until there is a name nothing happens at all.  Then the peer is greeted and joins, its
commands follow in the order of its frames, and the end of the connection ends its game.

What a connection does is a function of what its reads bring alone (`Connection.history`).
-/

namespace TankArena

/-- What happens on a connection. -/
inductive Event where
  /-- The peer is sent the id, the edge of the world and the walls. -/
  | greet
  | join (name : String)
  | command (c : Command Float)
  | disconnect

/-- The message of an event of a connection with an id, if it is one for the server. -/
def Event.message? (id : UInt32) : Event → Option (Message Float)
  | greet => none
  | join name => some (.join id name Rules.outboundQueue)
  | command c => some (.command id c)
  | disconnect => some (.disconnect id)

/-- What a read of a connection brings. -/
inductive Arrival where
  /-- Bytes from the peer; none at the end of its stream. -/
  | bytes (received : List UInt8)
  /-- The read failed. -/
  | failure

/-- Whether nothing is read after it. -/
def Arrival.isLast : Arrival → Bool
  | bytes received => received.isEmpty
  | failure => true

/-- A connection between two reads. -/
structure Connection where
  framer : Framer
  /-- Whether the name has come. -/
  joined : Bool

namespace Connection

/-- A connection before its first read. -/
def fresh : Connection := ⟨Framer.fresh Rules.maxPendingBytes, false⟩

/-- The commands of some frames; a frame that is no command is dropped. -/
def commands (frames : List String) : List Event :=
  frames.filterMap fun frame => (Command.decode? frame).map .command

/-- The connection after a read, and what happens. -/
def read (c : Connection) (bytes : List UInt8) : Connection × List Event :=
  let (framer, frames) := c.framer.push bytes
  if c.joined then (⟨framer, true⟩, commands frames)
  else match frames with
    | [] => (⟨framer, false⟩, [])
    | name :: frames => (⟨framer, true⟩, .greet :: .join (Text.trim name) :: commands frames)

/-- What happens at the end of a connection. -/
def finish (c : Connection) : List Event := if c.joined then [.disconnect] else []

/-- The connection after several reads, and what happens. -/
def readAll (c : Connection) : List (List UInt8) → Connection × List Event
  | [] => (c, [])
  | bytes :: reads =>
    let (c, events) := c.read bytes
    let (c, later) := c.readAll reads
    (c, events ++ later)

/-- What happens on a connection from now on, up to the first arrival that is the last. -/
def follow (c : Connection) : List Arrival → List Event
  | [] => []
  | .bytes (b :: bytes) :: arrivals =>
    let (c, events) := c.read (b :: bytes)
    events ++ c.follow arrivals
  | _ :: _ => c.finish

/-- All that happens on a connection. -/
def history (arrivals : List Arrival) : List Event := fresh.follow arrivals

end Connection

end TankArena
