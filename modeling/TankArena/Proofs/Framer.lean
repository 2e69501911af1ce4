import Mathlib.Data.List.Forall2
import Mathlib.Data.List.Infix
import Mathlib.Data.List.Induction
import TankArena.Framer

/-!
# However a stream is cut

A framer sees a byte stream in reads, and the state it keeps between reads depends on where the
reads end.  This file says what it hands out in terms of the stream alone, and of the ends of the
reads where these matter.

* `lines` and `unfinished` are the lines of a stream that have their line feed, and the rest.
* The `Body` of a line is what is left of it: a line that ends with the byte 13 loses this one byte,
  and any other line loses nothing.
* A line is lost when some read ended before its line feed with more than the limit of it received
  (`isLost`).  This is the only trace that the cutting leaves.
* `after` computes the state from the reads so far, without running the framer.  Every read takes
  the state of the reads before it to the state of the reads with it, and hands out the lines it
  completes (`push_within`, `push_across`); so all reads together hand out the lines that are not
  lost (`pushAll_fresh`).
-/

namespace TankArena.Framer

/-! ## 1. Lines of a stream -/

/-- The lines of a stream that have their line feed, which is the byte 10, without it. -/
def lines (stream : List UInt8) : List (List UInt8) := (stream.splitOn 10).dropLast

/-- The bytes of a stream after its last line feed. -/
def unfinished (stream : List UInt8) : List UInt8 := (stream.splitOn 10).getLastD []

theorem splitOn_eq_lines (stream : List UInt8) :
    stream.splitOn lineFeed = lines stream ++ [unfinished stream] := by
  have hlines : lines stream = (stream.splitOn lineFeed).dropLast := rfl
  have hrest : unfinished stream = (stream.splitOn lineFeed).getLastD [] := rfl
  rw [hlines, hrest]
  rcases List.eq_nil_or_concat (stream.splitOn lineFeed) with hnil | ⟨before, last, hsplit⟩
  · exact absurd hnil (List.splitOn_ne_nil _ _)
  · rw [hsplit, List.concat_eq_append, List.dropLast_concat, List.getLastD_concat]

theorem lines_of_splitOn {stream last : List UInt8} (before : List (List UInt8))
    (h : stream.splitOn lineFeed = before ++ [last]) :
    lines stream = before ∧ unfinished stream = last := by
  rw [splitOn_eq_lines] at h
  obtain ⟨hlines, hrest⟩ := List.append_inj' h rfl
  exact ⟨hlines, List.singleton_inj.mp hrest⟩

/-- **Splitting what is put together.**  The last piece of the first part goes on with the first
piece of the second. -/
theorem splitOn_append (s t : List UInt8) :
    (s ++ t).splitOn lineFeed
      = lines s ++ (t.splitOn lineFeed).modifyHead (unfinished s ++ ·) := by
  induction s with
  | nil =>
    obtain ⟨hlines, hrest⟩ := lines_of_splitOn [] (List.splitOn_nil lineFeed)
    rw [hlines, hrest, List.nil_append, List.nil_append]
    cases t.splitOn lineFeed with
    | nil => rfl
    | cons piece pieces => rfl
  | cons b s ih =>
    have hcons := List.splitOn_cons_eq_if_modifyHead (a := lineFeed) b s
    rw [splitOn_eq_lines s] at hcons
    rw [List.cons_append, List.splitOn_cons_eq_if_modifyHead, ih]
    by_cases hfeed : b = lineFeed
    · rw [if_pos (beq_iff_eq.mpr hfeed)] at hcons ⊢
      obtain ⟨hlines, hrest⟩ := lines_of_splitOn ([] :: lines s) hcons
      rw [hlines, hrest, List.cons_append]
    · rw [if_neg (fun h => hfeed (beq_iff_eq.mp h))] at hcons ⊢
      cases hs : lines s with
      | nil =>
        rw [hs] at hcons
        obtain ⟨hlines, hrest⟩ := lines_of_splitOn [] hcons
        rw [hlines, hrest, List.nil_append, List.nil_append, List.modifyHead_modifyHead]
        rfl
      | cons line rest =>
        rw [hs] at hcons
        obtain ⟨hlines, hrest⟩ := lines_of_splitOn ((b :: line) :: rest) hcons
        rw [hlines, hrest]
        rfl

/-- A line and what is left of it without one carriage return, which is the byte 13, at its end. -/
inductive Body : List UInt8 → List UInt8 → Prop where
  | returned (body : List UInt8) : Body (body ++ [13]) body
  | whole {line : List UInt8} : line.getLast? ≠ some 13 → Body line line

/-- **A line has one body**, and that is what a framer makes of it. -/
theorem body_iff {line body : List UInt8} : Body line body ↔ body = dropReturn line := by
  have hbyte : carriageReturn = 13 := rfl
  unfold dropReturn
  rw [hbyte]
  constructor
  · rintro (_ | hplain)
    · rw [if_pos List.getLast?_concat, List.dropLast_concat]
    · rw [if_neg hplain]
  · rintro rfl
    by_cases hreturn : line.getLast? = some 13
    · obtain ⟨before, rfl⟩ := List.getLast?_eq_some_iff.mp hreturn
      rw [if_pos hreturn, List.dropLast_concat]
      exact Body.returned before
    · rw [if_neg hreturn]
      exact Body.whole hreturn

/-! ## 2. Cutting a read -/

theorem cutInto_eq (bytes line : List UInt8) (before : List (List UInt8)) :
    cutInto bytes line before
      = (before.reverse ++ (List.splitOnPPrepend (fun b => b == lineFeed) bytes line).dropLast,
          (List.splitOnPPrepend (fun b => b == lineFeed) bytes line).getLastD []) := by
  induction bytes generalizing line before with
  | nil => simp [cutInto]
  | cons b bytes ih =>
    unfold cutInto
    by_cases hfeed : b = lineFeed
    · have hne : List.splitOnPPrepend (fun b => b == lineFeed) bytes [] ≠ [] :=
        List.splitOnPPrepend_ne_nil _ _ _
      rw [if_pos hfeed, ih,
        List.splitOnPPrepend_cons_pos (p := fun b => b == lineFeed) (beq_iff_eq.mpr hfeed),
        ← List.splitOnPPrepend_nil_right, List.dropLast_cons_of_ne_nil hne, List.reverse_cons,
        List.append_assoc, List.singleton_append]
      obtain ⟨piece, pieces, hpieces⟩ := List.exists_cons_of_ne_nil hne
      rw [hpieces]
      rfl
    · rw [if_neg hfeed, ih,
        List.splitOnPPrepend_cons_neg (p := fun b => b == lineFeed) (beq_false_of_ne hfeed)]

/-- A read is cut into the lines and the rest of its own bytes. -/
theorem cut_eq (bytes : List UInt8) : cut bytes = (lines bytes, unfinished bytes) := by
  unfold cut
  rw [cutInto_eq, List.reverse_nil, List.nil_append]
  rfl

/-- A read without a line feed goes on with the unfinished line. -/
theorem append_of_cut_nil {s t rest : List UInt8} (h : cut t = ([], rest)) :
    lines (s ++ t) = lines s ∧ unfinished (s ++ t) = unfinished s ++ rest := by
  obtain ⟨hlines, hrest⟩ := Prod.mk.inj ((cut_eq t).symm.trans h)
  refine lines_of_splitOn (lines s) ?_
  rw [splitOn_append, splitOn_eq_lines t, hlines, hrest]
  rfl

/-- A read with a line feed ends the unfinished line. -/
theorem append_of_cut_cons {s t line rest : List UInt8} {more : List (List UInt8)}
    (h : cut t = (line :: more, rest)) :
    lines (s ++ t) = lines s ++ (unfinished s ++ line) :: more ∧ unfinished (s ++ t) = rest := by
  obtain ⟨hlines, hrest⟩ := Prod.mk.inj ((cut_eq t).symm.trans h)
  refine lines_of_splitOn (lines s ++ (unfinished s ++ line) :: more) ?_
  rw [splitOn_append, splitOn_eq_lines t, hlines, hrest, List.append_assoc]
  rfl

theorem length_lines_append (s t : List UInt8) :
    (lines s).length ≤ (lines (s ++ t)).length := by
  have hcut := cut_eq t
  cases ht : lines t with
  | nil =>
    rw [ht] at hcut
    rw [(append_of_cut_nil hcut).1]
  | cons line more =>
    rw [ht] at hcut
    rw [(append_of_cut_cons hcut).1, List.length_append]
    exact Nat.le_add_right _ _

/-! ## 3. Lost lines -/

/-- Whether some of the reads ended within the line with a number, counted from zero, and with more
than the limit of it received. -/
def isLost (limit : Nat) (reads : List (List UInt8)) (number : Nat) : Bool :=
  reads.inits.any fun received =>
    (lines received.flatten).length == number &&
      decide (limit < (unfinished received.flatten).length)

/-- The things of a list whose numbers, counted from zero, pass a test. -/
def select {α : Type} (p : Nat → Bool) : List α → List α
  | [] => []
  | x :: xs => (if p 0 then [x] else []) ++ select (fun i => p (i + 1)) xs

theorem select_cons {α : Type} (p : Nat → Bool) (x : α) (xs : List α) :
    select p (x :: xs) = (if p 0 then [x] else []) ++ select (fun i => p (i + 1)) xs := rfl

theorem select_append {α : Type} (p : Nat → Bool) (xs ys : List α) :
    select p (xs ++ ys) = select p xs ++ select (fun i => p (xs.length + i)) ys := by
  induction xs generalizing p with
  | nil =>
    simp only [List.nil_append, List.length_nil, Nat.zero_add]
    rfl
  | cons x xs ih =>
    rw [List.cons_append, select_cons, select_cons, ih, List.append_assoc, List.length_cons]
    simp only [Nat.add_right_comm _ 1]

theorem select_congr {α : Type} {p q : Nat → Bool} {xs : List α}
    (h : ∀ i < xs.length, p i = q i) : select p xs = select q xs := by
  induction xs generalizing p q with
  | nil => rfl
  | cons x xs ih =>
    rw [select_cons, select_cons, h 0 (Nat.zero_lt_succ _),
      ih fun i hi => h (i + 1) (Nat.succ_lt_succ hi)]

theorem select_all {α : Type} {p : Nat → Bool} {xs : List α}
    (h : ∀ i < xs.length, p i = true) : select p xs = xs := by
  induction xs generalizing p with
  | nil => rfl
  | cons x xs ih =>
    rw [select_cons, if_pos (h 0 (Nat.zero_lt_succ _)),
      ih fun i hi => h (i + 1) (Nat.succ_lt_succ hi)]
    rfl

variable {limit : Nat} {reads : List (List UInt8)}

theorem isLost_iff {number : Nat} :
    isLost limit reads number = true ↔
      ∃ received, received <+: reads ∧ (lines received.flatten).length = number ∧
        limit < (unfinished received.flatten).length := by
  unfold isLost
  rw [List.any_eq_true]
  constructor
  · rintro ⟨received, hmem, h⟩
    rw [Bool.and_eq_true, beq_iff_eq, decide_eq_true_iff] at h
    exact ⟨received, (List.mem_inits _ _).mp hmem, h⟩
  · rintro ⟨received, hpre, h⟩
    refine ⟨received, (List.mem_inits _ _).mpr hpre, ?_⟩
    rw [Bool.and_eq_true, beq_iff_eq, decide_eq_true_iff]
    exact h

/-- One more read loses the line that it ends within, if that has grown too long. -/
theorem isLost_concat_iff {read : List UInt8} {number : Nat} :
    isLost limit (reads ++ [read]) number = true ↔
      isLost limit reads number = true ∨
        ((lines (reads.flatten ++ read)).length = number ∧
          limit < (unfinished (reads.flatten ++ read)).length) := by
  have hall : (reads ++ [read]).flatten = reads.flatten ++ read := by
    rw [List.flatten_append, List.flatten_singleton]
  rw [isLost_iff, isLost_iff, ← hall]
  constructor
  · rintro ⟨received, hpre, h⟩
    rcases List.prefix_concat_iff.mp hpre with rfl | hpre
    · exact Or.inr h
    · exact Or.inl ⟨received, hpre, h⟩
  · rintro (⟨received, hpre, h⟩ | h)
    · exact ⟨received, hpre.trans (List.prefix_append _ _), h⟩
    · exact ⟨reads ++ [read], List.prefix_refl _, h⟩

/-- A line that has not begun is not lost. -/
theorem isLost_of_lt {number : Nat} (h : (lines reads.flatten).length < number) :
    isLost limit reads number = false := by
  rw [Bool.eq_false_iff, Ne, isLost_iff]
  rintro ⟨received, ⟨rest, rfl⟩, hnumber, -⟩
  rw [List.flatten_append] at h
  have hle := length_lines_append received.flatten rest.flatten
  omega

/-- A line that a read has left behind is lost if it was lost before. -/
theorem isLost_concat_of_ne {read : List UInt8} {number : Nat}
    (h : (lines (reads.flatten ++ read)).length ≠ number) :
    isLost limit (reads ++ [read]) number = isLost limit reads number := by
  rw [Bool.eq_iff_iff, isLost_concat_iff]
  exact or_iff_left fun hread => h hread.1

/-! ## 4. The state between reads -/

/-- A framer that has received some bytes of a line, and dropped them if the line is lost. -/
def held (limit : Nat) (line : List UInt8) (lost : Bool) : Framer where
  limit := limit
  pending := if lost then [] else line
  discarding := lost

/-- What a framer keeps after some reads, computed from the reads. -/
def after (limit : Nat) (reads : List (List UInt8)) : Framer :=
  held limit (unfinished reads.flatten) (isLost limit reads (lines reads.flatten).length)

/-- The lines of some reads that are not lost. -/
def kept (limit : Nat) (reads : List (List UInt8)) : List (List UInt8) :=
  select (fun number => !isLost limit reads number) (lines reads.flatten)

/-- The end of a read makes a line longer, and loses it if it is too long then. -/
theorem keep_held (limit : Nat) (line rest : List UInt8) (lost : Bool) :
    (held limit line lost).keep rest
      = held limit (line ++ rest) (lost || decide (limit < (line ++ rest).length)) := by
  cases lost with
  | true => rfl
  | false =>
    have hkeep : (held limit line false).keep rest
        = if limit < (line ++ rest).length then held limit [] true
          else held limit (line ++ rest) false := rfl
    rw [hkeep, Bool.false_or]
    by_cases hlong : limit < (line ++ rest).length
    · rw [if_pos hlong, decide_eq_true hlong]
      rfl
    · rw [if_neg hlong, decide_eq_false hlong]

theorem flatten_concat (reads : List (List UInt8)) (read : List UInt8) :
    (reads ++ [read]).flatten = reads.flatten ++ read := by
  rw [List.flatten_append, List.flatten_singleton]

/-- **A read within a line.**  The line goes on, and nothing is handed out. -/
theorem push_within (limit : Nat) (reads : List (List UInt8)) {read rest : List UInt8}
    (hcut : cut read = ([], rest)) :
    (after limit reads).push read = (after limit (reads ++ [read]), []) ∧
      kept limit (reads ++ [read]) = kept limit reads := by
  obtain ⟨hlines, hrest⟩ := append_of_cut_nil (s := reads.flatten) hcut
  have hlost : isLost limit (reads ++ [read]) (lines reads.flatten).length
      = (isLost limit reads (lines reads.flatten).length ||
          decide (limit < (unfinished reads.flatten ++ rest).length)) := by
    rw [Bool.eq_iff_iff, isLost_concat_iff, hlines, hrest, Bool.or_eq_true, decide_eq_true_iff,
      and_iff_right rfl]
  constructor
  · unfold push
    rw [hcut]
    unfold after
    rw [flatten_concat, hlines, hrest, hlost, ← keep_held]
  · unfold kept
    rw [flatten_concat, hlines]
    refine select_congr fun number hnumber => ?_
    have hleft : (lines (reads.flatten ++ read)).length ≠ number := by
      rw [hlines]
      omega
    rw [isLost_concat_of_ne hleft]

/-- **A read with a line feed.**  The unfinished line is handed out unless it was lost, then the
other lines of the read, and the framer begins anew with the rest. -/
theorem push_across (limit : Nat) (reads : List (List UInt8)) {read line rest : List UInt8}
    {more : List (List UInt8)} (hcut : cut read = (line :: more, rest)) :
    ∃ handed, (after limit reads).push read
        = (after limit (reads ++ [read]), handed.filterMap frame?) ∧
      kept limit (reads ++ [read]) = kept limit reads ++ handed := by
  obtain ⟨hlines, hrest⟩ := append_of_cut_cons (s := reads.flatten) hcut
  have hcount : (lines (reads.flatten ++ read)).length
      = (lines reads.flatten).length + (more.length + 1) := by
    rw [hlines, List.length_append, List.length_cons]
  have hlost : isLost limit (reads ++ [read]) (lines (reads.flatten ++ read)).length
      = decide (limit < rest.length) := by
    have hnew : isLost limit reads (lines (reads.flatten ++ read)).length = false :=
      isLost_of_lt (by omega)
    rw [Bool.eq_iff_iff, isLost_concat_iff, hrest, hnew, decide_eq_true_iff, and_iff_right rfl]
    exact or_iff_right Bool.false_ne_true
  refine ⟨(if !isLost limit reads (lines reads.flatten).length then
    [unfinished reads.flatten ++ line] else []) ++ more, ?_, ?_⟩
  · have hstate : (held limit [] false).keep rest = after limit (reads ++ [read]) := by
      unfold after
      rw [keep_held, flatten_concat, hlost, hrest, List.nil_append, Bool.false_or]
    unfold push
    rw [hcut]
    refine Prod.ext hstate ?_
    unfold after held
    dsimp only
    cases isLost limit reads (lines reads.flatten).length <;> rfl
  · have hbefore : ∀ number < (lines reads.flatten).length,
        isLost limit (reads ++ [read]) number = isLost limit reads number := by
      intro number hnumber
      exact isLost_concat_of_ne (by omega)
    have hnow : isLost limit (reads ++ [read]) (lines reads.flatten).length
        = isLost limit reads (lines reads.flatten).length := isLost_concat_of_ne (by omega)
    have hmore : ∀ i < more.length,
        isLost limit (reads ++ [read]) ((lines reads.flatten).length + (i + 1)) = false := by
      intro i hi
      rw [isLost_concat_of_ne (by omega)]
      exact isLost_of_lt (by omega)
    unfold kept
    rw [flatten_concat, hlines, select_append, select_cons, Nat.add_zero, hnow,
      select_congr fun number hnumber => congrArg not (hbefore number hnumber),
      select_all fun i hi => congrArg not (hmore i hi)]

/-! ## 5. All reads -/

/-- The framer after some reads, and all frames that they complete. -/
def pushAll (f : Framer) : List (List UInt8) → Framer × List String
  | [] => (f, [])
  | read :: reads =>
    let (g, frames) := f.push read
    let (h, more) := g.pushAll reads
    (h, frames ++ more)

theorem pushAll_concat (f : Framer) (reads : List (List UInt8)) (read : List UInt8) :
    f.pushAll (reads ++ [read])
      = (((f.pushAll reads).1.push read).1,
          (f.pushAll reads).2 ++ ((f.pushAll reads).1.push read).2) := by
  induction reads generalizing f with
  | nil => simp [pushAll]
  | cons first reads ih => simp [pushAll, ih]

theorem after_nil (limit : Nat) : after limit [] = fresh limit := by
  have hlost : isLost limit [] (lines ([] : List (List UInt8)).flatten).length = false := by
    rw [Bool.eq_false_iff, Ne, isLost_iff]
    rintro ⟨received, hpre, -, hlong⟩
    rw [List.prefix_nil.mp hpre] at hlong
    exact absurd hlong (Nat.not_lt_zero limit)
  unfold after
  rw [hlost]
  rfl

/-- **The reads so far determine everything.**  By induction on the reads, the last one first. -/
theorem pushAll_eq (limit : Nat) (reads : List (List UInt8)) :
    (fresh limit).pushAll reads = (after limit reads, (kept limit reads).filterMap frame?) := by
  induction reads using List.reverseRecOn with
  | nil =>
    rw [after_nil]
    rfl
  | append_singleton reads read ih =>
    rw [pushAll_concat, ih]
    have hcut := cut_eq read
    cases hread : lines read with
    | nil =>
      rw [hread] at hcut
      obtain ⟨hpush, hkept⟩ := push_within limit reads hcut
      rw [hpush, hkept, List.append_nil]
    | cons line more =>
      rw [hread] at hcut
      obtain ⟨handed, hpush, hkept⟩ := push_across limit reads hcut
      rw [hpush, hkept, List.filterMap_append]

/-- Lines lose one carriage return, empty ones are left out, and the others are read as text. -/
theorem filterMap_frame? (ls : List (List UInt8)) :
    ls.filterMap frame?
      = ((ls.map dropReturn).filter fun line => !line.isEmpty).map Utf8.decodeLossy := by
  induction ls with
  | nil => rfl
  | cons line ls ih =>
    rw [List.filterMap_cons, List.map_cons, List.filter_cons, ih]
    unfold frame?
    dsimp only
    cases (dropReturn line).isEmpty <;> rfl

/-- A line that is lost is longer than the limit. -/
theorem kept_of_short (h : ∀ line ∈ lines reads.flatten, line.length ≤ limit) :
    kept limit reads = lines reads.flatten := by
  refine select_all fun number hnumber => ?_
  rw [Bool.not_eq_true', Bool.eq_false_iff, Ne, isLost_iff]
  rintro ⟨received, ⟨rest, rfl⟩, hcount, hlong⟩
  rw [List.flatten_append] at h hnumber
  have hcut := cut_eq rest.flatten
  cases hrest : lines rest.flatten with
  | nil =>
    rw [hrest] at hcut
    rw [(append_of_cut_nil hcut).1] at hnumber
    omega
  | cons line more =>
    rw [hrest] at hcut
    rw [(append_of_cut_cons hcut).1] at h
    have hshort := h (unfinished received.flatten ++ line)
      (List.mem_append_right _ List.mem_cons_self)
    rw [List.length_append] at hshort
    omega

/-- **However a stream is cut.**

* The frames are the bodies of the lines of the stream in order, but for the lines that are lost and
  the bodies that are empty, each read as text as a whole.  A line has one body: what is left of it
  without one carriage return at its end.
* What waits for its line feed is what was received of the unfinished line, or nothing if that
  line is lost, and so never more than the limit.
* If no line is longer than the limit, every other cutting of the stream gives the same frames. -/
theorem pushAll_fresh (limit : Nat) (reads : List (List UInt8)) :
    (∃ bodies, List.Forall₂ Body
        (select (fun number => !isLost limit reads number) (lines reads.flatten)) bodies ∧
      ((fresh limit).pushAll reads).2
        = (bodies.filter fun body => !body.isEmpty).map Utf8.decodeLossy) ∧
    ((fresh limit).pushAll reads).1.pendingLength
      = (if isLost limit reads (lines reads.flatten).length then 0
          else (unfinished reads.flatten).length) ∧
    ((fresh limit).pushAll reads).1.pendingLength ≤ limit ∧
    ((∀ line ∈ lines reads.flatten, line.length ≤ limit) →
      ∀ reads', reads'.flatten = reads.flatten →
        ((fresh limit).pushAll reads').2 = ((fresh limit).pushAll reads).2) := by
  rw [pushAll_eq]
  dsimp only
  have hpending : (after limit reads).pendingLength
      = if isLost limit reads (lines reads.flatten).length then 0
        else (unfinished reads.flatten).length := by
    unfold pendingLength after held
    dsimp only
    split
    · rfl
    · rfl
  have hbodies : List.Forall₂ Body (kept limit reads) ((kept limit reads).map dropReturn) :=
    List.forall₂_map_right_iff.mpr (List.forall₂_same.mpr fun _ _ => body_iff.mpr rfl)
  refine ⟨⟨_, hbodies, filterMap_frame? (kept limit reads)⟩, hpending, ?_,
    fun hshort reads' hsame => ?_⟩
  · rw [hpending]
    split
    · exact Nat.zero_le limit
    · rename_i hkept
      by_contra hlong
      exact hkept (isLost_iff.mpr
        ⟨reads, List.prefix_refl reads, rfl, Nat.lt_of_not_le hlong⟩)
  · rw [pushAll_eq, kept_of_short hshort]
    rw [← hsame] at hshort
    rw [kept_of_short hshort, hsame]

/-- One carriage return goes from the end of a line, also if it comes in a read of its own, and a
line that has nothing else is left out. -/
example : ((fresh 3).pushAll [[97, 13], [10, 13, 10, 98, 13, 13, 10], [13, 99, 10]]).2
    = ["a", "b\r", "\rc"] := by decide

/-- A character may be cut in two by a read; a byte that is no text becomes a replacement
character. -/
example : ((fresh 3).pushAll [[0xC3], [0xBC, 10, 0xFF, 97, 10]]).2 = ["ü", "\uFFFDa"] := by decide

/-- A line that is longer than the limit is lost if a read ends within it, and only then. -/
example : ((fresh 3).pushAll [[97, 98], [99, 100], [10, 101, 10]]).2 = ["e"] := by decide

example : ((fresh 3).pushAll [[97, 98, 99, 100, 10, 101, 10]]).2 = ["abcd", "e"] := by decide

end TankArena.Framer
