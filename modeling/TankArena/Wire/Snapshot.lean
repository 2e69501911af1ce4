import TankArena.Wire.Record

/-!
# Texts that the arena sends

A client that joins gets its id, the edge of the world and the walls; after that it gets one
snapshot for each tick.  Both are lines: one for each number, one for each record.
-/

namespace TankArena

/-- A record as a line, its line feed included. -/
def Record.lineText (r : Record Float) : List Char := r.toJson.text ++ ['\n']

/-- A snapshot as a text. -/
def snapshotText (records : List (Record Float)) : String :=
  String.ofList (records.flatMap Record.lineText)

/-- A whole number as a line. -/
def numberLine (n : Nat) : List Char := (Digit.digits n).map Digit.char ++ ['\n']

/-- The answer to a join: the id, the edge of the world, the walls. -/
def handshakeText (id : UInt32) (size : Nat) (walls : List (Wall Float)) : String :=
  String.ofList
    (numberLine id.toNat ++ numberLine size ++ walls.flatMap fun r => (Record.wall r).lineText)

end TankArena
