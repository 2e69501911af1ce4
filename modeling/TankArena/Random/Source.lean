import TankArena.Random.ChaCha
import TankArena.Zone

/-!
# Random places

A source of random words is a key and the number of words drawn so far, so the words to come are a
function of the seed and of how many were drawn.  From words come an index, a number of an
interval and a place in one of the spawn zones.

An index and a number are drawn again until they pass a test.  A source is asked `maxTries` times
at the most; the answer after that keeps within the bounds all the same.
-/

namespace TankArena

/-- A source of random 64-bit words. -/
structure Source where
  key : Vector UInt32 8
  drawn : Nat
  deriving Repr, DecidableEq

namespace Source

/-! ## 1. Words -/

/-- The next word of the key and the state after it. -/
def expand (s : UInt64) : UInt32 × UInt64 :=
  let s := s * 6364136223846793005 + 11634580027462260723
  let x := (((s >>> 18) ^^^ s) >>> 27).toUInt32
  let turn := (s >>> 59).toUInt32
  ((x >>> turn) ||| (x <<< ((32 - turn) % 32)), s)

/-- The words of the key that a seed expands to, in order. -/
def expandKey : (n : Nat) → UInt64 → Vector UInt32 n → (m : Nat) → Vector UInt32 (n + m)
  | _, _, out, 0 => out
  | n, s, out, m + 1 =>
    let (word, s) := expand s
    (expandKey (n + 1) s (out.push word) m).cast (by omega)

/-- The source of a seed. -/
def ofSeed (seed : UInt64) : Source := ⟨(expandKey 0 seed #v[] 8).cast (by omega), 0⟩

/-- The word with a number; a block of the generator holds eight of them, low halves first. -/
def word (s : Source) (i : Nat) : UInt64 :=
  let block := ChaCha.block 6 s.key (i / 8)
  let place := 2 * (i % 8)
  block[place].toUInt64 ||| (block[place + 1].toUInt64 <<< 32)

/-- The next word. -/
def next (s : Source) : UInt64 × Source := (s.word s.drawn, { s with drawn := s.drawn + 1 })

/-! ## 2. Draws -/

/-- How often a draw is tried. -/
def maxTries : Nat := 256

theorem index_lt (v : UInt64) : v.toNat * 5 / UInt64.size < 5 := by
  have h := v.toNat_lt
  simp only [UInt64.size]
  omega

/-- An index below five: the upper half of five times a word, if the lower half passes. -/
def indexIn : Nat → Source → Fin 5 × Source
  | 0, s => (0, s)
  | tries + 1, s =>
    let (v, s) := s.next
    if v.toNat * 5 % UInt64.size ≤ 0x9FFFFFFFFFFFFFFF then
      (⟨v.toNat * 5 / UInt64.size, index_lt v⟩, s)
    else indexIn tries s

variable {K : Type} [Scalar K]

/-- The fraction below one that the upper 52 bits of a word make. -/
def fraction (v : UInt64) : K := (((v.toNat / 4096 : Nat) : K)) / 4503599627370496.0

/-- A number from `low` up to but not including `high`. -/
def numberIn (low high : K) : Nat → Source → K × Source
  | 0, s => (low, s)
  | tries + 1, s =>
    let (v, s) := s.next
    let r := fraction v * (high - low) + low
    if r < high then (r, s) else numberIn low high tries s

/-- A place in one of the spawn zones of a world. -/
def place (half : K) (s : Source) : Vec K × Source :=
  let (index, s) := indexIn maxTries s
  let zone := Zone.spawn half index
  let (x, s) := numberIn zone.xMin zone.xMax maxTries s
  let (y, s) := numberIn zone.yMin zone.yMax maxTries s
  (⟨x, y⟩, s)

end Source

end TankArena
