import TankArena.Rules
import TankArena.Text.Utf8

/-!
# Frames of a byte stream

A read of a stream can end anywhere: within a frame, between two frames, after several.  A
`Framer` keeps the unfinished line between reads and hands out every complete frame once, in the
order of arrival.

A frame is a line without its line feed and without one carriage return before it; empty frames
are left out.  When the unfinished line has grown past the limit at the end of a read it is
dropped, and everything up to the next line feed with it.
-/

namespace TankArena

/-- What is kept of a byte stream between two reads. -/
structure Framer where
  /-- The most bytes of an unfinished line that are kept. -/
  limit : Nat
  /-- The unfinished line. -/
  pending : List UInt8
  /-- Whether the unfinished line was dropped for its length. -/
  discarding : Bool
  deriving Repr, DecidableEq

namespace Framer

/-- The byte that ends a line. -/
def lineFeed : UInt8 := 10

/-- The byte that may stand before the end of a line. -/
def carriageReturn : UInt8 := 13

/-- A framer at the start of a stream. -/
def fresh (limit : Nat) : Framer := ⟨limit, [], false⟩

/-! ## 1. Lines -/

/-- The complete lines of some bytes and the unfinished rest; `line` and `lines` hold what was cut
off before, in reverse. -/
def cutInto : List UInt8 → List UInt8 → List (List UInt8) → List (List UInt8) × List UInt8
  | [], line, lines => (lines.reverse, line.reverse)
  | b :: bytes, line, lines =>
    if b = lineFeed then cutInto bytes [] (line.reverse :: lines)
    else cutInto bytes (b :: line) lines

/-- The complete lines of some bytes, without their line feeds, and the unfinished rest. -/
def cut (bytes : List UInt8) : List (List UInt8) × List UInt8 := cutInto bytes [] []

/-- A line without one carriage return at its end. -/
def dropReturn (line : List UInt8) : List UInt8 :=
  if line.getLast? = some carriageReturn then line.dropLast else line

/-- The frame of a complete line: none if the line is empty. -/
def frame? (line : List UInt8) : Option String :=
  let line := dropReturn line
  if line.isEmpty then none else some (Utf8.decodeLossy line)

/-! ## 2. Reads -/

/-- The framer after the unfinished end of a read. -/
def keep (f : Framer) (rest : List UInt8) : Framer :=
  if f.discarding then f
  else
    let pending := f.pending ++ rest
    if f.limit < pending.length then { f with pending := [], discarding := true }
    else { f with pending }

/-- The framer after a read, and the frames that the read completes. -/
def push (f : Framer) (bytes : List UInt8) : Framer × List String :=
  match cut bytes with
  | ([], rest) => (f.keep rest, [])
  | (line :: lines, rest) =>
    let first := if f.discarding then [] else [f.pending ++ line]
    ({ f with pending := [], discarding := false }.keep rest, (first ++ lines).filterMap frame?)

/-- The bytes that wait for their line feed. -/
def pendingLength (f : Framer) : Nat := f.pending.length

end Framer

end TankArena
