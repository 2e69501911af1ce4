import TankArena.Connection
import TankArena.Proofs.Framer

/-!
# One connection is one game

A connection waits for a name, and from then on for commands.  Both use one framer, and the read
that brings the end of the name may bring commands as well, or the beginning of one.  This file
says that the hand-over from the first kind of waiting to the second loses nothing and repeats
nothing.

* `frames` are the frames of all reads together, as one framer hands them out.
* `game` is what should happen for some frames: nothing without a frame; otherwise the first one
  is the name, and the others are commands.
* Whatever the reads, the connection plays the game of its frames (`readAll_fresh`); the end of
  the connection adds the end of the game (`history_eq`).

So where the reads end shows in nothing but the frames, and it shows there only in lines that are
lost for their length.
-/

namespace TankArena.Connection

/-! ## 1. The game of some frames -/

/-- The frames of several reads. -/
def frames (reads : List (List UInt8)) : List String :=
  ((Framer.fresh Rules.maxPendingBytes).pushAll reads).2

/-- What happens for the frames of a connection, as long as it lasts. -/
def game : List String → List Event
  | [] => []
  | name :: rest => .greet :: .join (Text.trim name) :: commands rest

theorem commands_append (before after : List String) :
    commands (before ++ after) = commands before ++ commands after :=
  List.filterMap_append

/-- Frames that come after the name are commands. -/
theorem game_append {before : List String} (h : before ≠ []) (after : List String) :
    game (before ++ after) = game before ++ commands after := by
  obtain ⟨name, rest, rfl⟩ := List.exists_cons_of_ne_nil h
  have hrest : commands (rest ++ after) = commands rest ++ commands after := commands_append _ _
  unfold game
  dsimp only [List.cons_append]
  rw [hrest]

/-! ## 2. Reads -/

/-- A read after the name. -/
theorem read_joined (framer : Framer) (bytes : List UInt8) :
    (Connection.mk framer true).read bytes
      = (⟨(framer.push bytes).1, true⟩, commands (framer.push bytes).2) := rfl

/-- A read before the name: the first frame of the read, if it has one, is the name. -/
theorem read_waiting (framer : Framer) (bytes : List UInt8) :
    (Connection.mk framer false).read bytes
      = (⟨(framer.push bytes).1, !(framer.push bytes).2.isEmpty⟩, game (framer.push bytes).2) := by
  unfold read
  dsimp only
  rw [if_neg Bool.false_ne_true]
  cases (framer.push bytes).2 with
  | nil => rfl
  | cons name rest => rfl

theorem readAll_joined (framer : Framer) (reads : List (List UInt8)) :
    (Connection.mk framer true).readAll reads
      = (⟨(framer.pushAll reads).1, true⟩, commands (framer.pushAll reads).2) := by
  induction reads generalizing framer with
  | nil => rfl
  | cons bytes reads ih =>
    unfold readAll Framer.pushAll
    rw [read_joined]
    dsimp only
    rw [ih, commands_append]

/-- **The hand-over.**  Reads that start before the name play the game of their frames.  By
induction on the reads: a read without a frame goes on waiting with the bytes that it left in the
framer, and the first read with a frame leaves all later frames to be commands. -/
theorem readAll_waiting (framer : Framer) (reads : List (List UInt8)) :
    (Connection.mk framer false).readAll reads
      = (⟨(framer.pushAll reads).1, !(framer.pushAll reads).2.isEmpty⟩,
          game (framer.pushAll reads).2) := by
  induction reads generalizing framer with
  | nil => rfl
  | cons bytes reads ih =>
    unfold readAll Framer.pushAll
    rw [read_waiting]
    dsimp only
    by_cases hname : (framer.push bytes).2 = []
    · rw [hname, List.isEmpty_nil, Bool.not_true, ih, List.nil_append]
      rfl
    · have hsome : (framer.push bytes).2.isEmpty = false := by
        rw [List.isEmpty_eq_false_iff]
        exact hname
      have hall : ((framer.push bytes).2
          ++ ((framer.push bytes).1.pushAll reads).2).isEmpty = false := by
        rw [List.isEmpty_eq_false_iff]
        exact List.append_ne_nil_of_left_ne_nil hname _
      rw [hsome, Bool.not_false, readAll_joined, hall, Bool.not_false, game_append hname]

theorem readAll_fresh (reads : List (List UInt8)) :
    fresh.readAll reads
      = (⟨((Framer.fresh Rules.maxPendingBytes).pushAll reads).1, !(frames reads).isEmpty⟩,
          game (frames reads)) :=
  readAll_waiting _ reads

/-! ## 3. Whole connections -/

/-- Up to its last arrival a connection is its reads. -/
theorem follow_reads (c : Connection) {reads : List (List UInt8)} {last : Arrival}
    (hreads : ∀ bytes ∈ reads, bytes ≠ []) (hlast : last.isLast = true) (unread : List Arrival) :
    c.follow (reads.map .bytes ++ last :: unread)
      = (c.readAll reads).2 ++ (c.readAll reads).1.finish := by
  induction reads generalizing c with
  | nil =>
    cases last with
    | bytes received =>
      have hnone : received = [] := List.isEmpty_iff.mp hlast
      rw [hnone]
      rfl
    | failure => rfl
  | cons bytes reads ih =>
    obtain ⟨b, rest, rfl⟩ :=
      List.exists_cons_of_ne_nil (hreads bytes List.mem_cons_self)
    have hrest := ih (c.read (b :: rest)).1 fun later hlater =>
      hreads later (List.mem_cons_of_mem _ hlater)
    rw [List.map_cons, List.cons_append]
    unfold follow readAll
    dsimp only
    rw [hrest, List.append_assoc]

/-- **A connection plays the game of its frames and then ends it.** -/
theorem history_eq {reads : List (List UInt8)} {last : Arrival}
    (hreads : ∀ bytes ∈ reads, bytes ≠ []) (hlast : last.isLast = true) (unread : List Arrival) :
    history (reads.map .bytes ++ last :: unread)
      = game (frames reads) ++ if (frames reads).isEmpty then [] else [.disconnect] := by
  unfold history
  rw [follow_reads fresh hreads hlast, readAll_fresh]
  unfold finish
  dsimp only
  cases (frames reads).isEmpty with
  | true => rfl
  | false => rfl

/-- If no line is longer than the limit, the frames depend on the bytes alone. -/
theorem frames_eq_of_flatten_eq {reads reads' : List (List UInt8)}
    (hshort : ∀ line ∈ Framer.lines reads.flatten, line.length ≤ Rules.maxPendingBytes)
    (hsame : reads'.flatten = reads.flatten) : frames reads' = frames reads := by
  unfold frames
  rw [Framer.pushAll_eq, Framer.pushAll_eq, Framer.kept_of_short hshort]
  rw [← hsame] at hshort
  rw [Framer.kept_of_short hshort, hsame]

/-- The messages of the commands of some frames. -/
theorem messages_commands (id : UInt32) (rest : List String) :
    (commands rest).filterMap (Event.message? id)
      = rest.filterMap fun frame => (Command.decode? frame).map (.command id) := by
  unfold commands
  rw [List.filterMap_filterMap]
  refine List.filterMap_congr fun frame _ => ?_
  cases Command.decode? frame with
  | none => rfl
  | some c => rfl

theorem messages_game (id : UInt32) (name : String) (rest : List String) :
    (game (name :: rest)).filterMap (Event.message? id)
      = .join id (Text.trim name) Rules.outboundQueue ::
          rest.filterMap fun frame => (Command.decode? frame).map (.command id) := by
  have hgreet : Event.message? id .greet = none := rfl
  have hjoin : Event.message? id (.join (Text.trim name))
      = some (.join id (Text.trim name) Rules.outboundQueue) := rfl
  unfold game
  rw [List.filterMap_cons_none hgreet, List.filterMap_cons_some hjoin, messages_commands]

/-- **One connection is one game.**  The reads of a connection bring some bytes each, up to an
arrival that is the last.

* Without a frame nothing happens: the peer is sent nothing, and there is no message.
* Otherwise the peer is greeted once, before anything else, and the messages are one join under
  the trimmed first frame, a command for every later frame that is one, in the order of the
  frames, and one disconnect.
* If no line is longer than the limit, all of this is the same for every other way in which the
  bytes may come. -/
theorem joins_plays_leaves (id : UInt32) (reads : List (List UInt8)) (last : Arrival)
    (unread : List Arrival) (hreads : ∀ bytes ∈ reads, bytes ≠ []) (hlast : last.isLast = true) :
    (frames reads = [] → history (reads.map .bytes ++ last :: unread) = []) ∧
    (∀ name rest, frames reads = name :: rest →
      history (reads.map .bytes ++ last :: unread)
        = .greet :: .join (Text.trim name) :: commands rest ++ [.disconnect] ∧
      (history (reads.map .bytes ++ last :: unread)).filterMap (Event.message? id)
        = .join id (Text.trim name) Rules.outboundQueue ::
            (rest.filterMap fun frame => (Command.decode? frame).map (.command id)) ++
          [.disconnect id]) ∧
    ((∀ line ∈ Framer.lines reads.flatten, line.length ≤ 65536) →
      ∀ (reads' : List (List UInt8)) (last' : Arrival) (unread' : List Arrival),
        (∀ bytes ∈ reads', bytes ≠ []) → last'.isLast = true → reads'.flatten = reads.flatten →
        history (reads'.map .bytes ++ last' :: unread')
          = history (reads.map .bytes ++ last :: unread)) := by
  refine ⟨?_, ?_, ?_⟩
  · intro hnone
    rw [history_eq hreads hlast, hnone]
    rfl
  · intro name rest hframes
    have hevents : history (reads.map .bytes ++ last :: unread)
        = game (name :: rest) ++ [.disconnect] := by
      rw [history_eq hreads hlast, hframes]
      rfl
    refine ⟨hevents, ?_⟩
    rw [hevents, List.filterMap_append, messages_game]
    rfl
  · intro hshort reads' last' unread' hreads' hlast' hsame
    rw [history_eq hreads hlast, history_eq hreads' hlast', frames_eq_of_flatten_eq hshort hsame]

/-- A name, a command and a line that is no command, in three reads: the first ends within the
name, the second within the command. -/
def threeReads : List (List UInt8) :=
  [Utf8.encode " a", Utf8.encode "da\n\x7b\"moving\":\"up\",",
    Utf8.encode "\"fire\":\"main\",\"tdir\":[0.0,1.0]\x7d\nno\n"]

theorem joins_plays_leaves_threeReads :
    (∀ bytes ∈ threeReads, bytes ≠ []) ∧ Arrival.failure.isLast = true ∧
    ∃ c, (history (threeReads.map .bytes ++ [.failure])).filterMap (Event.message? 7)
        = [.join 7 "ada" Rules.outboundQueue, .command 7 c, .disconnect 7] ∧
      c.drive = .up ∧ c.trigger = .main := by
  have hreads : ∀ bytes ∈ threeReads, bytes ≠ [] := by decide +kernel
  have hframes : frames threeReads
      = [" ada", "\x7b\"moving\":\"up\",\"fire\":\"main\",\"tdir\":[0.0,1.0]\x7d", "no"] := by
    decide +kernel
  have hname : Text.trim " ada" = "ada" := by decide +kernel
  have hno : (Command.decode? "no").isNone = true := by decide +kernel
  have hcommand : (Command.decode?
      "\x7b\"moving\":\"up\",\"fire\":\"main\",\"tdir\":[0.0,1.0]\x7d").any
        (fun c => c.drive == .up && c.trigger == .main) = true := by decide +kernel
  obtain ⟨c, hc, hup⟩ := (Option.any_eq_true _ _).mp hcommand
  rw [Bool.and_eq_true, beq_iff_eq, beq_iff_eq] at hup
  refine ⟨hreads, rfl, c, ?_, hup⟩
  rw [((joins_plays_leaves 7 threeReads .failure [] hreads rfl).2.1 _ _ hframes).2, hname,
    List.filterMap_cons_some (by rw [hc]; rfl),
    List.filterMap_cons_none (by rw [Option.isNone_iff_eq_none.mp hno]; rfl)]
  rfl

end TankArena.Connection
