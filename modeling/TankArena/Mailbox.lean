/-!
# Bounded queues

A mailbox holds messages for one receiver, first in, first out, up to its capacity.  Handing in a
message never waits: it is refused when the receiver is gone, and dropped when the mailbox is
full.
-/

namespace TankArena

/-- A bounded queue and whether its receiver is there. -/
structure Mailbox (M : Type) where
  capacity : Nat
  waiting : List M
  listening : Bool
  deriving Repr

/-- What became of a message that was handed in. -/
inductive Delivery where
  | queued
  /-- The mailbox held as many messages as it can. -/
  | full
  /-- The receiver is gone. -/
  | closed
  deriving Repr, DecidableEq

namespace Mailbox

variable {M : Type}

/-- An empty mailbox with its receiver. -/
def fresh (capacity : Nat) : Mailbox M := ⟨capacity, [], true⟩

/-- What becomes of a message that is handed in. -/
def delivery (b : Mailbox M) : Delivery :=
  if !b.listening then .closed
  else if b.capacity ≤ b.waiting.length then .full
  else .queued

/-- The mailbox after a message was handed in. -/
def offer (m : M) (b : Mailbox M) : Mailbox M :=
  match b.delivery with
  | .queued => { b with waiting := b.waiting ++ [m] }
  | _ => b

/-- The mailbox without its first message. -/
def rest (b : Mailbox M) : Mailbox M := { b with waiting := b.waiting.tail }

/-- The mailbox after its receiver has gone. -/
def close (b : Mailbox M) : Mailbox M := { b with waiting := [], listening := false }

end Mailbox

end TankArena
