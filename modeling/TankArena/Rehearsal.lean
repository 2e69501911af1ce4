import TankArena.Connection
import TankArena.Server
import TankArena.Settings.Reader
import TankArena.Wire.Snapshot

/-!
# Rehearsals

A rehearsal is a game between a server and scripted players without sockets or a clock.  Bytes
arrive at once and in order, every message is handled at an instant of its own, and a tick is run
whenever a player waits for news.  Everything a rehearsal answers is the same as in a game over a
network, however many ticks pass there between two steps.
-/

namespace TankArena

/-- The place of a player who has joined. -/
structure Seat where
  id : UInt32
  connection : Connection
  /-- The player's subscription. -/
  handle : Nat
  /-- The rest of the snapshot that the player is reading. -/
  current : List (Record Float)
  /-- The snapshots that the player has not begun to read. -/
  later : List (List (Record Float))

/-- A game under way. -/
structure Rehearsal where
  server : Server Float
  clock : Time
  /-- The length of a tick. -/
  frame : Nat
  /-- The id of the next connection. -/
  nextId : UInt32
  /-- The players who have joined, in order. -/
  seats : List Seat

namespace Rehearsal

/-! ## 1. Bytes and messages -/

/-- The game at its beginning. -/
def ofSettings (settings : Settings Float) (source : Source) : Rehearsal where
  server := Server.ofWorld (World.ofSettings settings source)
  clock := 0
  frame := Time.ofMillis settings.msPerFrame
  nextId := 1
  seats := []

/-- Bytes cut into reads. -/
def cutReads : List UInt8 → List (List UInt8)
  | [] => []
  | b :: bytes =>
    (b :: bytes).take Rules.readBuffer :: cutReads ((b :: bytes).drop Rules.readBuffer)
termination_by bytes => bytes.length
decreasing_by
  simp only [List.length_drop, List.length_cons, Rules.readBuffer]
  omega

/-- The game after a message, handled at an instant of its own. -/
def handle (r : Rehearsal) (m : Message Float) : Rehearsal :=
  { r with clock := r.clock + 1, server := r.server.handle (r.clock + 1) m }

/-- The game after the events of a connection. -/
def handleAll (id : UInt32) (events : List Event) (r : Rehearsal) : Rehearsal :=
  (events.filterMap (Event.message? id)).foldl handle r

/-! ## 2. News -/

/-- The seat after everything queued for it has arrived. -/
def Seat.fill (clients : Registry (List (Record Float))) (s : Seat) : Seat :=
  match clients.subscriptions[s.handle]? with
  | none => s
  | some sub => { s with later := s.later ++ sub.mailbox.waiting }

/-- The registry after everything queued has arrived. -/
def emptied (clients : Registry (List (Record Float))) : Registry (List (Record Float)) :=
  ⟨clients.subscriptions.map fun s => { s with mailbox := { s.mailbox with waiting := [] } }⟩

/-- The game after one more tick, with its snapshot at every seat. -/
def tick (r : Rehearsal) : Rehearsal :=
  let clock := r.clock + r.frame
  let server := r.server.runTick clock
  { r with
    clock
    server := { server with clients := emptied server.clients }
    seats := r.seats.map (Seat.fill server.clients) }

/-- A reader of records: what it makes of one, and its answer when it has one. -/
abbrev Reader (σ α : Type) := σ → Record Float → σ × Option α

/-- Reads records up to an answer; the rest is left. -/
def readRecords {σ α : Type} (f : Reader σ α) :
    σ → List (Record Float) → σ × Option α × List (Record Float)
  | s, [] => (s, none, [])
  | s, x :: xs =>
    match f s x with
    | (s, some a) => (s, some a, xs)
    | (s, none) => readRecords f s xs

/-- Reads snapshots up to an answer; the rest of the snapshot under way and the others are
left. -/
def readSnapshots {σ α : Type} (f : Reader σ α) :
    σ → List (Record Float) → List (List (Record Float)) →
      σ × Option α × List (Record Float) × List (List (Record Float))
  | s, current, later =>
    match readRecords f s current with
    | (s, some a, rest) => (s, some a, rest, later)
    | (s, none, _) =>
      match later with
      | [] => (s, none, [], [])
      | next :: later => readSnapshots f s next later
termination_by _ _ later => later.length

/-- The most ticks that a player waits for news. -/
def patience : Nat := 20000

/-- Reads at a seat, running ticks as long as there is no answer. -/
def await {σ α : Type} (place : Nat) (f : Reader σ α) :
    Nat → σ → Rehearsal → Rehearsal × Option α
  | 0, _, r => (r, none)
  | ticks + 1, s, r =>
    match r.seats[place]? with
    | none => (r, none)
    | some seat =>
      let (s, answer, current, later) := readSnapshots f s seat.current seat.later
      let r := { r with seats := r.seats.set place { seat with current, later } }
      match answer with
      | some a => (r, some a)
      | none => await place f ticks s r.tick

/-! ## 3. What players look for -/

/-- Looks for a tank record. -/
def tankWhere (test : TankRecord Float → Bool) : Reader Unit (TankRecord Float)
  | _, .tank t => ((), if test t then some t else none)
  | _, _ => ((), none)

/-- Looks for a beam of an owner. -/
def beamOf (owner : UInt32) : Reader Unit (BeamRecord Float)
  | _, .beam b => ((), if b.owner = owner then some b else none)
  | _, _ => ((), none)

/-- Follows the first projectile of an owner that comes into sight until it has died; the state
holds the records seen of it, the last one first. -/
def shotOf (owner : UInt32) : Reader (List (ProjectileRecord Float)) (List (ProjectileRecord Float))
  | [], .projectile p =>
    if p.owner = owner then ([p], if p.died then some [p] else none) else ([], none)
  | seen@(q :: _), .projectile p =>
    if p.id = q.id then (p :: seen, if p.died then some (p :: seen).reverse else none)
    else (seen, none)
  | seen, _ => (seen, none)

/-- The ids of the tanks of the next whole snapshot at a seat. -/
def nextRoster (place : Nat) : Nat → Rehearsal → Rehearsal × Option (List UInt32)
  | 0, r => (r, none)
  | ticks + 1, r =>
    match r.seats[place]? with
    | none => (r, none)
    | some seat =>
      match seat.later with
      | [] => nextRoster place ticks r.tick
      | next :: later =>
        ({ r with seats := r.seats.set place { seat with current := [], later } },
          some (next.filterMap fun
            | .tank t => some t.id
            | _ => none))

/-! ## 4. Steps -/

/-- What a player of the script does. -/
inductive Step where
  /-- Connects, sends chunks that hold a name, and looks for the first record of the own tank. -/
  | join (chunks : List (List UInt8))
  /-- Connects, sends chunks without a name, and leaves. -/
  | knock (chunks : List (List UInt8))
  /-- Sends bytes. -/
  | send (place : Nat) (chunks : List (List UInt8))
  /-- Turns the turret and looks for the own tank with that aim. -/
  | aim (place : Nat) (drive : Drive) (direction : Vec Float)
  /-- Looks for a tank with some values. -/
  | watch (place : Nat) (id : UInt32) (hitPoints : Option UInt8) (disconnected : Option Bool)
      (body : Option (Vec Float))
  /-- Follows the next projectile of an owner. -/
  | shot (place : Nat) (owner : UInt32)
  /-- Looks for the next beam of an owner. -/
  | beam (place : Nat) (owner : UInt32)
  /-- Leaves. -/
  | leave (place : Nat)
  /-- Asks which tanks the next snapshot shows. -/
  | roster (place : Nat)

/-- What a player of the script sees. -/
inductive Sight where
  | nothing
  /-- The greeting and the first record of the own tank. -/
  | welcome (greeting : String) (tank : TankRecord Float)
  /-- The text that came back before the end of the connection. -/
  | reply (text : String)
  | tank (t : TankRecord Float)
  | shot (records : List (ProjectileRecord Float))
  | beam (b : BeamRecord Float)
  | roster (ids : List UInt32)
  /-- What was looked for did not come. -/
  | vain

/-- The greeting of a connection. -/
def greeting (r : Rehearsal) (id : UInt32) : String :=
  handshakeText id r.server.world.size r.server.world.walls

/-- The answer of a look at a seat. -/
def look {σ α : Type} (r : Rehearsal) (place : Nat) (f : Reader σ α) (s : σ) (answer : α → Sight) :
    Rehearsal × Sight :=
  match r.await place f patience s with
  | (r, some a) => (r, answer a)
  | (r, none) => (r, .vain)

/-- The game after bytes from a seat. -/
def sendFrom (r : Rehearsal) (place : Nat) (chunks : List (List UInt8)) : Rehearsal :=
  match r.seats[place]? with
  | none => r
  | some seat =>
    let (connection, events) := seat.connection.readAll (chunks.flatMap cutReads)
    { r with seats := r.seats.set place { seat with connection } }.handleAll seat.id events

/-- The game after a step of the script, and what its player sees. -/
def step (r : Rehearsal) : Step → Rehearsal × Sight
  | .join chunks =>
    let id := r.nextId
    let (connection, events) := Connection.fresh.readAll (chunks.flatMap cutReads)
    let r := { r with nextId := id + 1 }.handleAll id events
    match r.server.clients.handle? id with
    | none => (r, .vain)
    | some handle =>
      let r := { r with seats := r.seats ++ [Seat.mk id connection handle [] []] }
      r.look (r.seats.length - 1) (tankWhere fun t => t.id == id && t.joined) ()
        (.welcome (r.greeting id))
  | .knock chunks =>
    let id := r.nextId
    let (connection, events) := Connection.fresh.readAll (chunks.flatMap cutReads)
    let r := { r with nextId := id + 1 }.handleAll id (events ++ connection.finish)
    (r, .reply (if connection.joined then r.greeting id else ""))
  | .send place chunks => (r.sendFrom place chunks, .nothing)
  | .aim place drive direction =>
    match r.seats[place]?, direction.normalized with
    | some seat, some turret =>
      let line := (Command.mk drive .idle direction).encode
      (r.sendFrom place [Utf8.encode line]).look place
        (tankWhere fun t => t.id == seat.id && t.turret.same turret) () .tank
    | _, _ => (r, .vain)
  | .watch place id hitPoints disconnected body =>
    r.look place
      (tankWhere fun t => t.id == id && hitPoints.all (· == t.hitPoints) &&
        disconnected.all (· == t.disconnected) && body.all (Vec.same t.body)) () .tank
  | .shot place owner => r.look place (shotOf owner) [] .shot
  | .beam place owner => r.look place (beamOf owner) () .beam
  | .leave place =>
    match r.seats[place]? with
    | none => (r, .nothing)
    | some seat => (r.handleAll seat.id seat.connection.finish, .nothing)
  | .roster place =>
    match r.nextRoster place patience with
    | (r, some ids) => (r, .roster ids)
    | (r, none) => (r, .vain)

end Rehearsal

end TankArena
