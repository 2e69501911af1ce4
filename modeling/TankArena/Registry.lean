import TankArena.Mailbox

/-!
# The clients of a server

A subscription is one client's mailbox together with the id that the client joined under.  At
most one subscription of an id is registered at a time; a second one is refused.  Broadcasts reach
the registered ones.  A receiver keeps what is queued for it after its subscription has ended.

A subscription is named by its handle, its place in the list of all subscriptions so far.
-/

namespace TankArena

/-- A client's mailbox and its standing with the server. -/
structure Subscription (M : Type) where
  id : UInt32
  mailbox : Mailbox M
  /-- Whether the server still sends to the client. -/
  registered : Bool
  /-- Broadcasts that the client missed because its mailbox was full.  The count is taken as
  unbounded: no game lasts until a 64-bit word is full. -/
  dropped : Nat
  deriving Repr

namespace Subscription

variable {M : Type}

/-- The subscription after a broadcast. -/
def receive (m : M) (s : Subscription M) : Subscription M :=
  if s.registered then
    { s with
      mailbox := s.mailbox.offer m
      dropped := if s.mailbox.delivery = .full then s.dropped + 1 else s.dropped }
  else s

/-- Whether the server still sends to a receiver that has gone. -/
def isLost (s : Subscription M) : Bool := s.registered && s.mailbox.delivery == .closed

end Subscription

/-- All subscriptions so far, in the order in which they were asked for. -/
structure Registry (M : Type) where
  subscriptions : List (Subscription M)
  deriving Repr

/-- What a receiver finds. -/
inductive Receipt (M : Type) where
  | message (m : M)
  /-- Nothing is queued, and the server may still send. -/
  | empty
  /-- Nothing is queued, and nothing will be. -/
  | closed
  /-- There is no such receiver. -/
  | absent
  deriving Repr

namespace Registry

variable {M : Type}

/-- A registry without clients. -/
def empty : Registry M := ⟨[]⟩

/-! ## 1. Registration -/

/-- Whether a client is registered under an id. -/
def contains (id : UInt32) (r : Registry M) : Bool :=
  r.subscriptions.any fun s => s.registered && s.id == id

/-- How many clients are registered. -/
def size (r : Registry M) : Nat := r.subscriptions.countP fun s => s.registered

/-- The handle of the client registered under an id. -/
def handle? (id : UInt32) (r : Registry M) : Option Nat :=
  r.subscriptions.findIdx? fun s => s.registered && s.id == id

/-- The registry with one more subscription, and whether it is registered: not if its id is in
use. -/
def add (id : UInt32) (capacity : Nat) (r : Registry M) : Registry M × Bool :=
  let free := !r.contains id
  (⟨r.subscriptions ++ [⟨id, Mailbox.fresh capacity, free, 0⟩]⟩, free)

/-- The registry without the client of an id, and whether there was one. -/
def remove (id : UInt32) (r : Registry M) : Registry M × Bool :=
  (⟨r.subscriptions.map fun s =>
      if s.registered && s.id == id then { s with registered := false } else s⟩,
    r.contains id)

/-! ## 2. Sending -/

/-- The registry after a message to all registered clients, and the ids of those whose receivers
have gone. -/
def broadcast (m : M) (r : Registry M) : Registry M × List UInt32 :=
  (⟨r.subscriptions.map (Subscription.receive m)⟩,
    (r.subscriptions.filter Subscription.isLost).map Subscription.id)

/-! ## 3. Receiving -/

/-- What the receiver with a handle finds. -/
def receipt (handle : Nat) (r : Registry M) : Receipt M :=
  match r.subscriptions[handle]? with
  | none => .absent
  | some s =>
    if !s.mailbox.listening then .absent
    else match s.mailbox.waiting with
      | m :: _ => .message m
      | [] => if s.registered then .empty else .closed

/-- A change of the mailbox with a handle. -/
def modifyMailbox (handle : Nat) (f : Mailbox M → Mailbox M) (r : Registry M) : Registry M :=
  ⟨r.subscriptions.modify handle fun s => { s with mailbox := f s.mailbox }⟩

/-- The registry after the receiver with a handle took what it found, and what that is. -/
def take (handle : Nat) (r : Registry M) : Registry M × Receipt M :=
  (r.modifyMailbox handle Mailbox.rest, r.receipt handle)

/-- The registry after the receiver with a handle has gone, and whether it was there. -/
def hangUp (handle : Nat) (r : Registry M) : Registry M × Bool :=
  (r.modifyMailbox handle Mailbox.close,
    r.subscriptions[handle]?.any fun s => s.mailbox.listening)

end Registry

end TankArena
