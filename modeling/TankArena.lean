import TankArena.Scalar
import TankArena.Vec
import TankArena.Rules
import TankArena.Geometry
import TankArena.Zone
import TankArena.Decimal.Digit
import TankArena.Decimal.Shortest
import TankArena.Decimal.Numeral
import TankArena.Decimal.Layout
import TankArena.Json.Value
import TankArena.Json.Token
import TankArena.Json.Reader
import TankArena.Json.Fields
import TankArena.Text.Blank
import TankArena.Text.Utf8
import TankArena.Framer
import TankArena.Command
import TankArena.Record
import TankArena.Wire.Number
import TankArena.Wire.Command
import TankArena.Wire.Record
import TankArena.Settings.Basic
import TankArena.Settings.Reader
import TankArena.Time
import TankArena.Table
import TankArena.Tank
import TankArena.Ordnance
import TankArena.Random.ChaCha
import TankArena.Random.Source
import TankArena.World.Basic
import TankArena.World.Fire
import TankArena.World.Motion
import TankArena.World.Collision
import TankArena.World.Tick
import TankArena.Wire.Snapshot
import TankArena.Mailbox
import TankArena.Registry
import TankArena.Server
import TankArena.Connection
import TankArena.Rehearsal
import TankArena.Options
import TankArena.Main
import TankArena.Proofs.Table
import TankArena.Proofs.Tank.Change
import TankArena.Proofs.Tank.Sound
import TankArena.Proofs.World.Stages
import TankArena.Proofs.World.Orders
import TankArena.Proofs.World.Soundness
import TankArena.Proofs.World.Badges
import TankArena.Proofs.World.Shots
import TankArena.Proofs.Registry
import TankArena.Proofs.Registry.Delivery
import TankArena.Proofs.Server.Run
import TankArena.Proofs.Server.Agreement
import TankArena.Proofs.Server.Life
import TankArena.Proofs.Server.OwnRecord
import TankArena.Proofs.Framer
import TankArena.Proofs.Connection
import TankArena.Proofs.Text.Utf8
import TankArena.Proofs.Decimal.Numeral
import TankArena.Proofs.Decimal.Layout
import TankArena.Proofs.Decimal.Whole
import TankArena.Proofs.Json.Quoted
import TankArena.Proofs.Json.Text
import TankArena.Proofs.Json.Fields
import TankArena.Proofs.Json.Grammar
import TankArena.Proofs.Json.Members
import TankArena.Proofs.Json.Forms
import TankArena.Proofs.Wire.Lines
import TankArena.Proofs.Wire.Number
import TankArena.Proofs.Wire.Command
import TankArena.Proofs.Wire.Record
import TankArena.Proofs.Wire.Snapshot
import TankArena.Proofs.Wire.CommandGrammar
import TankArena.Proofs.Wire.RecordGrammar
import TankArena.Proofs.World.Contact
import TankArena.Proofs.World.Passage
import TankArena.Proofs.World.Hits
import TankArena.Proofs.World.Order
import TankArena.Proofs.World.Course
import TankArena.Proofs.World.Intent
import TankArena.Proofs.World.Cooldown
import TankArena.Proofs.World.Pickups
import TankArena.Proofs.World.Supply
import TankArena.Proofs.World.Ids
import TankArena.Proofs.World.Interleaving
import TankArena.Proofs.World.Score
import TankArena.Proofs.World.Confluence
import TankArena.Proofs.World.Counter
import TankArena.Proofs.World.Walls
import TankArena.Proofs.World.Shift
import TankArena.Proofs.World.Film
import TankArena.Proofs.World.Flight
import TankArena.Proofs.World.Respawn
import TankArena.Proofs.World.Spent
import TankArena.Proofs.Exact
import TankArena.Proofs.World.Beginning
import TankArena.Proofs.World.Edges
import TankArena.Proofs.World.Barrier
import TankArena.Proofs.Ray
import TankArena.Proofs.World.Lifetime
import TankArena.Proofs.Settings.Grammar
import TankArena.Proofs.Settings.Checks
import TankArena.Proofs.Settings.Outcome
