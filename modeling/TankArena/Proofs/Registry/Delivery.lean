import TankArena.Proofs.Registry

/-!
# What a client gets

A registry is used by many at once: clients come and go under any ids, snapshots are sent to all of
them, and every receiver takes what is queued for it, or goes away, when it likes.  A `Call` is any
of these, and a run is a list of calls.  This file follows one client, named by its handle, through
a run.

* What a call makes of a client depends on the client and the call alone (`Subscription.follow`), so
  a call that is not on a client and not to all changes nothing for it (`leave_out`).
* `accepted` are the messages sent while the client was registered, its receiver there and its
  mailbox not full; `missed` counts those that found the mailbox full.
* `taken` are the messages that the receiver found, and `backlog` is what is queued at the end of
  the run; for a receiver that has gone it is what it left in the mailbox.

Every call keeps the account of these (`queue_step`), so over a run what was accepted is what was
taken and then the backlog (`taken_append_backlog`).
-/

namespace TankArena

variable {M : Type}

namespace Registry

/-! ## 1. Calls and runs -/

/-- What can be done to a registry. -/
inductive Call (M : Type) where
  /-- A client asks to be registered under an id, with a mailbox of this capacity. -/
  | add (id : UInt32) (capacity : Nat)
  | remove (id : UInt32)
  | broadcast (m : M)
  /-- The receiver with a handle takes what it finds. -/
  | take (handle : Nat)
  /-- The receiver with a handle goes away. -/
  | hangUp (handle : Nat)

/-- Whether a call is on all clients. -/
def Call.isBroadcast : Call M → Bool
  | .broadcast _ => true
  | _ => false

/-- The registry after a call. -/
def call (r : Registry M) : Call M → Registry M
  | .add id capacity => (r.add id capacity).1
  | .remove id => (r.remove id).1
  | .broadcast m => (r.broadcast m).1
  | .take handle => (r.take handle).1
  | .hangUp handle => (r.hangUp handle).1

/-- The registry after a run of calls. -/
def run (r : Registry M) (calls : List (Call M)) : Registry M := calls.foldl call r

theorem run_append (r : Registry M) (before after : List (Call M)) :
    r.run (before ++ after) = (r.run before).run after :=
  List.foldl_append

end Registry

open Registry (Call)

/-! ## 2. One client -/

/-- What the receiver of a mailbox could still take. -/
def Mailbox.held (b : Mailbox M) : List M := if b.listening then b.waiting else []

/-- What a call makes of the subscription with a handle. -/
def Subscription.follow (handle : Nat) (s : Subscription M) : Call M → Subscription M
  | .add _ _ => s
  | .remove id => if s.registered && s.id == id then { s with registered := false } else s
  | .broadcast m => s.receive m
  | .take other => if other = handle then { s with mailbox := s.mailbox.rest } else s
  | .hangUp other => if other = handle then { s with mailbox := s.mailbox.close } else s

namespace Subscription

/-- **What a broadcast does to one client.**  A registered client whose receiver is there gets the
message, or misses it if its mailbox is full; no other client is touched. -/
theorem receive_eq (s : Subscription M) (m : M) :
    s.receive m =
      if s.registered && s.mailbox.listening then
        if s.mailbox.capacity ≤ s.mailbox.waiting.length then { s with dropped := s.dropped + 1 }
        else { s with mailbox := { s.mailbox with waiting := s.mailbox.waiting ++ [m] } }
      else s := by
  obtain ⟨id, ⟨capacity, waiting, listening⟩, registered, dropped⟩ := s
  unfold receive Mailbox.offer Mailbox.delivery
  cases registered <;> cases listening <;> by_cases hfull : capacity ≤ waiting.length <;>
    simp [hfull]

theorem follow_remove_mailbox (handle : Nat) (s : Subscription M) (id : UInt32) :
    (s.follow handle (.remove id)).mailbox = s.mailbox := by
  dsimp only [follow]
  split <;> rfl

/-- A receiver that has gone does not come back. -/
theorem follow_listening {handle : Nat} {s : Subscription M} (h : s.mailbox.listening = false)
    (c : Call M) : (s.follow handle c).mailbox.listening = false := by
  cases c with
  | add id capacity => exact h
  | remove id => rw [follow_remove_mailbox, h]
  | broadcast m => simp [follow, receive_eq, h]
  | take other | hangUp other =>
    dsimp only [follow]
    split
    · simp [Mailbox.rest, Mailbox.close, h]
    · exact h

end Subscription

namespace Registry

variable {r : Registry M} {handle : Nat} {s : Subscription M} {c : Call M}

theorem getElem?_modifyMailbox (f : Mailbox M → Mailbox M) (other : Nat)
    (h : r.subscriptions[handle]? = some s) :
    (r.modifyMailbox other f).subscriptions[handle]?
      = some (if other = handle then { s with mailbox := f s.mailbox } else s) := by
  unfold modifyMailbox
  rw [List.getElem?_modify, h]
  split <;> rfl

/-- **A client is changed by a call as it would be alone.** -/
theorem getElem?_call (h : r.subscriptions[handle]? = some s) (c : Call M) :
    (r.call c).subscriptions[handle]? = some (s.follow handle c) := by
  have hlt : handle < r.subscriptions.length := (List.getElem?_eq_some_iff.mp h).1
  cases c with
  | add id capacity =>
    have happend : (r.call (.add id capacity)).subscriptions
        = r.subscriptions ++ [⟨id, Mailbox.fresh capacity, !r.contains id, 0⟩] := rfl
    rw [happend, List.getElem?_append_left hlt, h]
    rfl
  | remove id =>
    have hmap : (r.call (.remove id)).subscriptions = r.subscriptions.map fun s =>
        if s.registered && s.id == id then { s with registered := false } else s := rfl
    rw [hmap, List.getElem?_map, h]
    rfl
  | broadcast m =>
    have hmap : (r.call (.broadcast m)).subscriptions
        = r.subscriptions.map (Subscription.receive m) := rfl
    rw [hmap, List.getElem?_map, h]
    rfl
  | take other => exact getElem?_modifyMailbox _ other h
  | hangUp other => exact getElem?_modifyMailbox _ other h

theorem getElem?_run (h : r.subscriptions[handle]? = some s) (calls : List (Call M)) :
    (r.run calls).subscriptions[handle]? = some (calls.foldl (Subscription.follow handle) s) := by
  induction calls generalizing r s with
  | nil => exact h
  | cons c calls ih => exact ih (getElem?_call h c)

/-- A client that appears with a call has an empty mailbox. -/
theorem fresh_of_call (h : r.subscriptions[handle]? = none)
    (hs : (r.call c).subscriptions[handle]? = some s) :
    s.mailbox.waiting = [] ∧ s.dropped = 0 := by
  have hle : r.subscriptions.length ≤ handle := List.getElem?_eq_none_iff.mp h
  cases c with
  | add id capacity =>
    have happend : (r.call (.add id capacity)).subscriptions
        = r.subscriptions ++ [⟨id, Mailbox.fresh capacity, !r.contains id, 0⟩] := rfl
    rw [happend, List.getElem?_append_right hle, List.getElem?_singleton] at hs
    split at hs
    · obtain rfl := Option.some.inj hs
      exact ⟨rfl, rfl⟩
    · cases hs
  | remove id | broadcast m =>
    obtain ⟨hlt, -⟩ := List.getElem?_eq_some_iff.mp hs
    simp only [call, remove, broadcast, List.length_map] at hlt
    omega
  | take other | hangUp other =>
    obtain ⟨hlt, -⟩ := List.getElem?_eq_some_iff.mp hs
    simp only [call, take, hangUp, modifyMailbox, List.length_modify] at hlt
    omega

/-! ## 3. What one call does for a client -/

/-- What the receiver with a handle could still take. -/
def queue (handle : Nat) (r : Registry M) : List M :=
  match r.subscriptions[handle]? with
  | some s => s.mailbox.held
  | none => []

/-- Whether the client with a handle is registered and its receiver there. -/
def isOpen (handle : Nat) (r : Registry M) : Bool :=
  r.subscriptions[handle]?.any fun s => s.registered && s.mailbox.listening

/-- Whether the mailbox of the client with a handle holds as many messages as it can. -/
def isFull (handle : Nat) (r : Registry M) : Bool :=
  r.subscriptions[handle]?.any fun s => decide (s.mailbox.capacity ≤ s.mailbox.waiting.length)

/-- The message that a call puts into the mailbox with a handle. -/
def acceptedBy (handle : Nat) (r : Registry M) : Call M → List M
  | .broadcast m => if r.isOpen handle && !r.isFull handle then [m] else []
  | _ => []

/-- How many messages a call keeps from a client because its mailbox is full. -/
def missedBy (handle : Nat) (r : Registry M) : Call M → Nat
  | .broadcast _ => if r.isOpen handle && r.isFull handle then 1 else 0
  | _ => 0

/-- The message that the receiver with a handle finds in a call. -/
def takenBy (handle : Nat) (r : Registry M) : Call M → List M
  | .take other =>
    if other = handle then
      match r.receipt handle with
      | .message m => [m]
      | _ => []
    else []
  | _ => []

/-- Whether the receiver with a handle goes away in a call. -/
def leaves (handle : Nat) (r : Registry M) : Call M → Bool
  | .hangUp other => other == handle && (r.hangUp other).2
  | _ => false

/-- Whether a call is on the client with a handle, or to all clients. -/
def reaches (handle : Nat) (r : Registry M) : Call M → Bool
  | .add _ _ => false
  | .remove id => r.subscriptions[handle]?.any fun s => s.registered && s.id == id
  | .broadcast _ => true
  | .take other => other == handle
  | .hangUp other => other == handle

theorem queue_of_none (h : r.subscriptions[handle]? = none) : r.queue handle = [] := by
  unfold queue
  rw [h]

theorem queue_of_some (h : r.subscriptions[handle]? = some s) :
    r.queue handle = s.mailbox.held := by
  unfold queue
  rw [h]

theorem isOpen_of_some (h : r.subscriptions[handle]? = some s) :
    r.isOpen handle = (s.registered && s.mailbox.listening) := by
  unfold isOpen
  rw [h]
  rfl

theorem isFull_of_some (h : r.subscriptions[handle]? = some s) :
    r.isFull handle = decide (s.mailbox.capacity ≤ s.mailbox.waiting.length) := by
  unfold isFull
  rw [h]
  rfl

theorem isOpen_of_none (h : r.subscriptions[handle]? = none) : r.isOpen handle = false := by
  unfold isOpen
  rw [h]
  rfl

/-- A call that does not reach a client leaves it as it is. -/
theorem follow_of_not_reaches (h : r.subscriptions[handle]? = some s)
    (hc : r.reaches handle c = false) : s.follow handle c = s := by
  cases c with
  | add id capacity => rfl
  | remove id =>
    have hother : (s.registered && s.id == id) = false := by simpa [reaches, h] using hc
    simp [Subscription.follow, hother]
  | broadcast m => exact absurd hc.symm Bool.false_ne_true
  | take other | hangUp other =>
    have hother : other ≠ handle := by simpa [reaches] using hc
    simp [Subscription.follow, hother]

/-- The client whose receiver goes away, before and after. -/
theorem gone_of_leaves (hc : r.leaves handle c = true) :
    ∃ s, (r.call c).subscriptions[handle]? = some s ∧ s.mailbox.listening = false ∧
      r.takenBy handle c = [] ∧ r.acceptedBy handle c = [] := by
  cases c with
  | hangUp other =>
    obtain ⟨hother, hthere⟩ : other = handle ∧ (r.hangUp other).2 = true := by
      simpa [leaves] using hc
    obtain ⟨s, hs, -⟩ := (Option.any_eq_true _ _).mp hthere
    rw [hother] at hs
    refine ⟨_, getElem?_call hs _, ?_, rfl, rfl⟩
    simp [Subscription.follow, hother, Mailbox.close]
  | add | remove | broadcast | take => exact absurd hc Bool.false_ne_true

/-- **The account of one call.**  What was queued and what the call brings is what the call takes
and what is queued then, unless the receiver goes away with what it has. -/
theorem queue_step (handle : Nat) (r : Registry M) (hc : r.leaves handle c = false) :
    r.queue handle ++ r.acceptedBy handle c = r.takenBy handle c ++ (r.call c).queue handle := by
  cases h : r.subscriptions[handle]? with
  | none =>
    have hqueue : (r.call c).queue handle = [] := by
      cases hs : (r.call c).subscriptions[handle]? with
      | none => exact queue_of_none hs
      | some s => rw [queue_of_some hs, Mailbox.held, (fresh_of_call h hs).1, ite_self]
    have htaken : r.takenBy handle c = [] := by
      cases c <;> simp [takenBy, receipt, h]
    have haccepted : r.acceptedBy handle c = [] := by
      cases c <;> simp [acceptedBy, isOpen_of_none h]
    rw [queue_of_none h, hqueue, htaken, haccepted]
  | some s =>
    rw [queue_of_some h, queue_of_some (getElem?_call h c)]
    cases c with
    | add id capacity => exact List.append_nil _
    | remove id =>
      rw [Subscription.follow_remove_mailbox]
      exact List.append_nil _
    | broadcast m =>
      simp only [acceptedBy, takenBy, Subscription.follow, Subscription.receive_eq, isOpen_of_some h,
        isFull_of_some h, List.nil_append, Mailbox.held]
      cases s.registered <;> cases hlistening : s.mailbox.listening <;>
        by_cases hfull : s.mailbox.capacity ≤ s.mailbox.waiting.length <;> simp [hfull, hlistening]
    | take other =>
      by_cases hother : other = handle
      · cases hlistening : s.mailbox.listening <;> cases hwaiting : s.mailbox.waiting <;>
          simp [acceptedBy, takenBy, Subscription.follow, receipt, Mailbox.rest, Mailbox.held, h,
            hother, hlistening, hwaiting]
        cases s.registered <;> rfl
      · simp [acceptedBy, takenBy, Subscription.follow, hother]
    | hangUp other =>
      by_cases hother : other = handle
      · have hgone : s.mailbox.listening = false := by
          simpa [leaves, hangUp, hother, h] using hc
        simp [acceptedBy, takenBy, Subscription.follow, Mailbox.close, Mailbox.held, hother, hgone]
      · simp [acceptedBy, takenBy, Subscription.follow, hother]

/-- **What a call adds to a mailbox** is what it is said to put there. -/
theorem drop_queue_call (handle : Nat) (r : Registry M) (c : Call M) :
    ((r.call c).queue handle).drop (r.queue handle).length = r.acceptedBy handle c := by
  by_cases hc : r.leaves handle c = true
  · obtain ⟨s, hs, hgone, -, haccepted⟩ := gone_of_leaves hc
    rw [queue_of_some hs, haccepted]
    simp [Mailbox.held, hgone]
  · have hstep := queue_step handle r (Bool.not_eq_true _ ▸ hc)
    cases c with
    | broadcast m =>
      have htaken : r.takenBy handle (.broadcast m) = [] := rfl
      rw [htaken, List.nil_append] at hstep
      rw [← hstep, List.drop_left]
    | add | remove | take | hangUp =>
      refine List.drop_eq_nil_iff.mpr ?_
      have hlength := congrArg List.length hstep
      simp only [acceptedBy, List.append_nil, List.length_append] at hlength
      omega

/-- The client's count of missed messages. -/
def dropped (handle : Nat) (r : Registry M) : Nat :=
  match r.subscriptions[handle]? with
  | some s => s.dropped
  | none => 0

theorem dropped_of_some (h : r.subscriptions[handle]? = some s) : r.dropped handle = s.dropped := by
  unfold dropped
  rw [h]

theorem dropped_step (handle : Nat) (r : Registry M) (c : Call M) :
    (r.call c).dropped handle = r.dropped handle + r.missedBy handle c := by
  cases h : r.subscriptions[handle]? with
  | none =>
    have hmissed : r.missedBy handle c = 0 := by
      cases c <;> simp [missedBy, isOpen_of_none h]
    have hbefore : r.dropped handle = 0 := by simp [dropped, h]
    rw [hbefore, hmissed]
    cases hs : (r.call c).subscriptions[handle]? with
    | none => simp [dropped, hs]
    | some s => rw [dropped_of_some hs, (fresh_of_call h hs).2]
  | some s =>
    rw [dropped_of_some h, dropped_of_some (getElem?_call h c)]
    cases c with
    | add id capacity => rfl
    | broadcast m =>
      simp only [missedBy, Subscription.follow, Subscription.receive_eq, isOpen_of_some h,
        isFull_of_some h]
      cases s.registered && s.mailbox.listening <;>
        by_cases hfull : s.mailbox.capacity ≤ s.mailbox.waiting.length <;> simp [hfull]
    | remove other | take other | hangUp other =>
      dsimp only [missedBy, Subscription.follow]
      split <;> rfl

/-! ## 4. What a run does for a client -/

/-- The messages that a run puts into the mailbox with a handle. -/
def accepted (handle : Nat) (r : Registry M) : List (Call M) → List M
  | [] => []
  | c :: calls => r.acceptedBy handle c ++ (r.call c).accepted handle calls

/-- How many messages a client misses in a run because its mailbox is full. -/
def missed (handle : Nat) (r : Registry M) : List (Call M) → Nat
  | [] => 0
  | c :: calls => r.missedBy handle c + (r.call c).missed handle calls

/-- The messages that the receiver with a handle finds in a run. -/
def taken (handle : Nat) (r : Registry M) : List (Call M) → List M
  | [] => []
  | c :: calls => r.takenBy handle c ++ (r.call c).taken handle calls

/-- What is queued for a client at the end of a run, or when its receiver went away. -/
def backlog (handle : Nat) (r : Registry M) : List (Call M) → List M
  | [] => r.queue handle
  | c :: calls => if r.leaves handle c then r.queue handle else (r.call c).backlog handle calls

/-- A receiver that has gone takes nothing, and nothing is queued for it. -/
theorem nothing_of_gone (h : r.subscriptions[handle]? = some s) (hgone : s.mailbox.listening = false)
    (calls : List (Call M)) : r.taken handle calls = [] ∧ r.accepted handle calls = [] := by
  induction calls generalizing r s with
  | nil => exact ⟨rfl, rfl⟩
  | cons c calls ih =>
    obtain ⟨htaken, haccepted⟩ :=
      ih (getElem?_call h c) (Subscription.follow_listening hgone c)
    have htakenBy : r.takenBy handle c = [] := by
      cases c <;> simp [takenBy, receipt, h, hgone]
    have hacceptedBy : r.acceptedBy handle c = [] := by
      cases c <;> simp [acceptedBy, isOpen_of_some h, hgone]
    simp only [taken, accepted, htaken, haccepted, htakenBy, hacceptedBy, List.append_nil, and_self]

/-- **The account of a run.**  By induction on the calls: a call keeps the account, until the
receiver goes away; after that nothing is added to either side. -/
theorem taken_append_backlog (handle : Nat) (r : Registry M) (calls : List (Call M)) :
    r.taken handle calls ++ r.backlog handle calls
      = r.queue handle ++ r.accepted handle calls := by
  induction calls generalizing r with
  | nil => exact (List.append_nil _).symm
  | cons c calls ih =>
    simp only [taken, backlog, accepted]
    by_cases hc : r.leaves handle c = true
    · obtain ⟨s, hs, hgone, htaken, haccepted⟩ := gone_of_leaves hc
      obtain ⟨htaken', haccepted'⟩ := nothing_of_gone hs hgone calls
      simp [hc, htaken, haccepted, htaken', haccepted']
    · rw [Bool.not_eq_true] at hc
      rw [hc, if_neg Bool.false_ne_true, List.append_assoc, ih, ← List.append_assoc,
        ← queue_step handle r hc, List.append_assoc]

theorem gone_run (h : r.subscriptions[handle]? = some s) (hgone : s.mailbox.listening = false)
    (calls : List (Call M)) :
    ∃ s', (r.run calls).subscriptions[handle]? = some s' ∧ s'.mailbox.listening = false := by
  induction calls generalizing r s with
  | nil => exact ⟨s, h, hgone⟩
  | cons c calls ih => exact ih (getElem?_call h c) (Subscription.follow_listening hgone c)

/-- The backlog of a receiver that is there is what is queued for it. -/
theorem backlog_eq_waiting {calls : List (Call M)}
    (h : (r.run calls).subscriptions[handle]? = some s) (hthere : s.mailbox.listening = true) :
    r.backlog handle calls = s.mailbox.waiting := by
  induction calls generalizing r with
  | nil =>
    have hqueue : r.queue handle = s.mailbox.held := queue_of_some h
    simp [backlog, hqueue, Mailbox.held, hthere]
  | cons c calls ih =>
    by_cases hc : r.leaves handle c = true
    · obtain ⟨s', hs', hgone, -, -⟩ := gone_of_leaves hc
      obtain ⟨s'', hs'', hgone'⟩ := gone_run hs' hgone calls
      have hsame : s'' = s := Option.some.inj (hs''.symm.trans h)
      rw [hsame, hthere] at hgone'
      exact absurd hgone'.symm Bool.false_ne_true
    · rw [backlog, if_neg hc]
      exact ih h

theorem dropped_run (handle : Nat) (r : Registry M) (calls : List (Call M)) :
    (r.run calls).dropped handle = r.dropped handle + r.missed handle calls := by
  induction calls generalizing r with
  | nil => rfl
  | cons c calls ih =>
    have hrun : r.run (c :: calls) = (r.call c).run calls := rfl
    rw [hrun, ih, dropped_step, missed, Nat.add_assoc]

/-! ## 5. Calls on others -/

theorem taken_append (handle : Nat) (r : Registry M) (before after : List (Call M)) :
    r.taken handle (before ++ after)
      = r.taken handle before ++ (r.run before).taken handle after := by
  induction before generalizing r with
  | nil => rfl
  | cons c before ih =>
    have hrun : r.run (c :: before) = (r.call c).run before := rfl
    rw [List.cons_append, taken, taken, ih, hrun, List.append_assoc]

/-- What a client takes in a run depends on the client alone. -/
theorem taken_congr {r' : Registry M} (h : r.subscriptions[handle]? = some s)
    (h' : r'.subscriptions[handle]? = some s) (calls : List (Call M)) :
    r.taken handle calls = r'.taken handle calls := by
  induction calls generalizing r r' s with
  | nil => rfl
  | cons c calls ih =>
    have htakenBy : r.takenBy handle c = r'.takenBy handle c := by
      cases c <;> simp [takenBy, receipt, h, h']
    rw [taken, taken, htakenBy, ih (getElem?_call h c) (getElem?_call h' c)]

/-- **A call that does not reach a client changes nothing for it.**  With the call left out of the
run, the receiver takes the same messages, and the client ends in the same state. -/
theorem leave_out (before after : List (Call M))
    (hthere : handle < (r.run before).subscriptions.length)
    (hc : (r.run before).reaches handle c = false) :
    r.taken handle (before ++ c :: after) = r.taken handle (before ++ after) ∧
      (r.run (before ++ c :: after)).subscriptions[handle]?
        = (r.run (before ++ after)).subscriptions[handle]? := by
  have hs := List.getElem?_eq_getElem hthere
  have hcall := getElem?_call hs c
  rw [follow_of_not_reaches hs hc] at hcall
  have htakenBy : (r.run before).takenBy handle c = [] := by
    cases c with
    | take other =>
      have hother : other ≠ handle := by simpa [reaches] using hc
      simp [takenBy, hother]
    | add | remove | broadcast | hangUp => rfl
  constructor
  · rw [taken_append, taken_append, taken, htakenBy, List.nil_append, taken_congr hcall hs]
  · have hrun : (r.run before).run (c :: after) = ((r.run before).call c).run after := rfl
    rw [run_append, run_append, hrun, getElem?_run hcall, getElem?_run hs]

/-- An id in use is refused: nobody is registered, and no subscription so far is touched. -/
theorem add_refused {id : UInt32} (h : r.contains id = true) (capacity : Nat) :
    (r.add id capacity).2 = false ∧ (r.add id capacity).1.ids = r.ids ∧
      ∀ other < r.subscriptions.length,
        (r.add id capacity).1.subscriptions[other]? = r.subscriptions[other]? := by
  refine ⟨by simp [add, h], ?_, fun other hother => ?_⟩
  · simp [add, ids, h, List.filter_append]
  · exact List.getElem?_append_left hother

theorem nodup_ids_call (h : r.ids.Nodup) (c : Call M) : (r.call c).ids.Nodup := by
  cases c with
  | add id capacity =>
    by_cases hused : r.contains id = true
    · rw [call, (add_refused hused capacity).2.1]
      exact h
    · have hfree : id ∉ r.ids := fun hmem => hused (contains_iff.mpr hmem)
      rw [call, ids_add hfree, ← List.concat_eq_append]
      exact h.concat hfree
  | remove id =>
    rw [call, ids_remove]
    exact h.filter _
  | broadcast m =>
    rw [call, ids_broadcast]
    exact h
  | take other | hangUp other =>
    have hids := ids_modifyMailbox (r := r) other
    exact (hids _).symm ▸ h

theorem nodup_ids_run (h : r.ids.Nodup) (calls : List (Call M)) : (r.run calls).ids.Nodup := by
  induction calls generalizing r with
  | nil => exact h
  | cons c calls ih => exact ih (nodup_ids_call h c)

/-- No client is lost twice. -/
theorem nodup_lost (h : r.ids.Nodup) : r.lost.Nodup := by
  refine h.sublist (List.Sublist.map _ (List.monotone_filter_right _ fun s hs => ?_))
  exact (Bool.and_eq_true_iff.mp hs).1

theorem delivery_eq_closed_iff (b : Mailbox M) : b.delivery = .closed ↔ b.listening = false := by
  unfold Mailbox.delivery
  cases b.listening
  · simp
  · simp only [Bool.not_true, Bool.false_eq_true, if_false]
    split <;> simp

/-- **Every client gets what was sent to it.**  Over any run of calls on an empty registry:

* the messages that a client has taken, and then those still queued for it (or left in its mailbox
  when its receiver went away), are the messages sent while it was registered, its receiver there
  and its mailbox not full, in this order;
* its count of missed messages is how many were sent while it was registered, its receiver there
  and its mailbox full;
* a broadcast names every registered client whose receiver has gone, once, and nobody else;
* a call that is not on a client and not to all could be left out of the run: the client takes the
  same messages and ends in the same state;
* an id in use is refused, and no client so far notices. -/
theorem each_client_gets_what_was_sent (calls : List (Call M)) :
    let r := (empty : Registry M).run calls
    (∀ handle, empty.taken handle calls ++ empty.backlog handle calls
      = empty.accepted handle calls) ∧
    (∀ handle s, r.subscriptions[handle]? = some s →
      (s.mailbox.listening = true → empty.backlog handle calls = s.mailbox.waiting) ∧
      s.dropped = empty.missed handle calls) ∧
    (∀ m, (r.broadcast m).2.Nodup ∧ ∀ id, id ∈ (r.broadcast m).2 ↔
      ∃ s ∈ r.subscriptions, s.registered = true ∧ s.id = id ∧ s.mailbox.listening = false) ∧
    (∀ before c after handle, calls = before ++ c :: after →
      handle < (empty.run before).subscriptions.length →
      (empty.run before).reaches handle c = false →
      empty.taken handle calls = empty.taken handle (before ++ after) ∧
        r.subscriptions[handle]? = (empty.run (before ++ after)).subscriptions[handle]?) ∧
    (∀ id capacity, r.contains id = true →
      (r.add id capacity).2 = false ∧ (r.add id capacity).1.ids = r.ids ∧
        ∀ other < r.subscriptions.length,
          (r.add id capacity).1.subscriptions[other]? = r.subscriptions[other]?) := by
  intro r
  have hnobody : (empty : Registry M).ids.Nodup := List.nodup_nil
  have hnodup : r.ids.Nodup := nodup_ids_run hnobody calls
  refine ⟨fun handle => ?_, fun handle s hs => ⟨fun hthere => ?_, ?_⟩,
    fun m => ⟨nodup_lost hnodup, fun id => ?_⟩, ?_, fun id capacity hused => ?_⟩
  · exact taken_append_backlog handle empty calls
  · exact backlog_eq_waiting hs hthere
  · have hnobody : (empty : Registry M).dropped handle = 0 := rfl
    rw [← dropped_of_some hs, dropped_run handle empty calls, hnobody, Nat.zero_add]
  · rw [broadcast_snd, mem_lost]
    simp only [delivery_eq_closed_iff]
  · rintro before c after handle rfl hthere hc
    exact leave_out before after hthere hc
  · exact add_refused hused capacity

/-- A mailbox for one message: the second is missed, and the third is queued after the first was
taken.  A second client under the same id gets nothing. -/
example :
    let calls : List (Call Nat) :=
      [.add 7 1, .broadcast 1, .add 7 9, .broadcast 2, .take 0, .broadcast 3, .hangUp 0]
    (empty.taken 0 calls, empty.backlog 0 calls, empty.missed 0 calls, empty.accepted 1 calls)
      = ([1], [3], 1, []) := by decide

end Registry

end TankArena
