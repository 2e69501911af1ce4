import TankArena.Connection
import TankArena.Options
import TankArena.Server
import TankArena.Wire.Snapshot

/-!
# A table for one

An arena on the standard streams: the player writes a name and then commands, and is shown a
snapshot after every read.  Reading and writing are all that happens here.
-/

namespace TankArena.Main

/-- The player's id. -/
def player : UInt32 := 1

/-- The instant of now. -/
def instant : IO Time := do return (← IO.monoNanosNow) / 1000

/-- The server after what happens on the connection; the greeting is written at once. -/
def handle (output : IO.FS.Stream) (server : Server Float) (event : Event) :
    IO (Server Float) := do
  match event.message? player with
  | some m => return server.handle (← instant) m
  | none =>
    output.putStr (handshakeText player server.world.size server.world.walls)
    return server

/-- Plays until the player's bytes end. -/
partial def play (input output : IO.FS.Stream) (server : Server Float) (c : Connection) :
    IO Unit := do
  let bytes ← input.read (USize.ofNat Rules.readBuffer)
  if bytes.isEmpty then return
  let (c, events) := c.read bytes.toList
  let server ← events.foldlM (handle output) server
  let server := server.runTick (← instant)
  let (clients, receipt) := server.clients.take 0
  match receipt with
  | .message records => output.putStr (snapshotText records)
  | _ => pure ()
  output.flush
  play input output { server with clients } c

/-- What is found at a path. -/
def look (path : String) : IO (Except Settings.FileFault (List UInt8)) := do
  try return .ok (← IO.FS.readBinFile path).toList
  catch _ => return .error .missing

end TankArena.Main

open TankArena in
/-- Reads the command line and the settings, and plays. -/
def main (args : List String) : IO UInt32 := do
  match Options.parse {} args with
  | .error e =>
    IO.eprintln ("error: " ++ e.message)
    return 2
  | .ok options =>
    match (Settings.ofFile options.settingsPath (← Main.look options.settingsPath)).bind
        options.override with
    | .error e =>
      IO.eprintln e.message
      return 1
    | .ok settings =>
      IO.eprintln (options.summary settings)
      let seed ← IO.getRandomBytes 8
      let source := Source.ofSeed (seed.toList.foldl (fun n b => 256 * n + b.toUInt64) 0)
      let server := Server.ofWorld (World.ofSettings settings source)
      Main.play (← IO.getStdin) (← IO.getStdout) server Connection.fresh
      return 0
