import TankArena.Registry
import TankArena.World.Tick

/-!
# The server

A server is a world and the clients who watch it.  Between ticks it handles the messages of its
connections in the order in which they come; a tick moves the world on and sends one snapshot to
every client.  A client whose receiver has gone is dropped then, and its tank is flagged for its
last report.
-/

namespace TankArena

/-- What a connection asks of the server. -/
inductive Message (K : Type) where
  /-- A player joins, with a mailbox of this capacity. -/
  | join (id : UInt32) (name : String) (capacity : Nat)
  | command (id : UInt32) (c : Command K)
  | disconnect (id : UInt32)

/-- A world and the clients who watch it. -/
structure Server (K : Type) where
  world : World K
  clients : Registry (List (Record K))

namespace Server

variable {K : Type} [Scalar K]

/-- A server at its beginning. -/
def ofWorld (world : World K) : Server K := ⟨world, Registry.empty⟩

/-- The server without a client: its tank is flagged and nothing more is sent to it. -/
def drop (s : Server K) (id : UInt32) : Server K :=
  ⟨s.world.disconnect id, (s.clients.remove id).1⟩

/-- The server after a message.  A join under the id of a tank that is still there is ignored. -/
def handle (now : Time) (s : Server K) : Message K → Server K
  | .join id name capacity =>
    let (world, added) := s.world.join id name
    if added then ⟨world, (s.clients.add id capacity).1⟩ else s
  | .command id c => { s with world := (s.world.command id c now).1 }
  | .disconnect id => s.drop id

/-- The server after a tick and its broadcast. -/
def runTick (now : Time) (s : Server K) : Server K :=
  let (world, records) := (s.world.tick now).snapshot
  if records.isEmpty || s.clients.size == 0 then { s with world }
  else
    let (clients, lost) := s.clients.broadcast records
    lost.foldl drop ⟨world, clients⟩

end Server

end TankArena
