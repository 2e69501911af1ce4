/-!
# UTF-8

Bytes read as text in two ways.  `decode?` wants well-formed bytes.  `decodeLossy` always
answers: it puts one replacement character for each longest run of bytes that starts a sequence
and cannot go on, and one for each byte that starts none.

The lossy reading is a fold: the state holds the sequence that is under way.
-/

namespace TankArena.Utf8

/-- The text of well-formed bytes. -/
def decode? (bytes : List UInt8) : Option String := String.fromUTF8? ⟨bytes.toArray⟩

/-- The bytes of a text. -/
def encode (s : String) : List UInt8 := s.toUTF8.toList

/-! ## 1. One sequence -/

/-- A sequence under way: the bits so far, how many bytes are still to come, and the range of the
next one. -/
structure Partial where
  code : Nat
  more : Nat
  least : Nat
  greatest : Nat
  deriving Repr, DecidableEq

/-- The character that stands for bytes which are no text. -/
def replacement : Char := '\uFFFD'

/-- The characters read so far, the last one first, and the sequence under way. -/
structure Reading where
  out : List Char
  underway : Option Partial
  deriving Repr, DecidableEq

namespace Reading

/-- One more character. -/
def emit (r : Reading) (c : Char) : Reading := ⟨c :: r.out, none⟩

/-- A byte where no sequence is under way. -/
def start (r : Reading) (byte : UInt8) : Reading :=
  let b := byte.toNat
  if b < 0x80 then r.emit (Char.ofNat b)
  else if b < 0xC2 then r.emit replacement
  else if b < 0xE0 then { r with underway := some ⟨b - 0xC0, 1, 0x80, 0xBF⟩ }
  else if b = 0xE0 then { r with underway := some ⟨0, 2, 0xA0, 0xBF⟩ }
  else if b = 0xED then { r with underway := some ⟨0xD, 2, 0x80, 0x9F⟩ }
  else if b < 0xF0 then { r with underway := some ⟨b - 0xE0, 2, 0x80, 0xBF⟩ }
  else if b = 0xF0 then { r with underway := some ⟨0, 3, 0x90, 0xBF⟩ }
  else if b < 0xF4 then { r with underway := some ⟨b - 0xF0, 3, 0x80, 0xBF⟩ }
  else if b = 0xF4 then { r with underway := some ⟨4, 3, 0x80, 0x8F⟩ }
  else r.emit replacement

/-- One more byte: it goes on with the sequence under way, or ends it early and starts anew. -/
def push (r : Reading) (byte : UInt8) : Reading :=
  match r.underway with
  | none => r.start byte
  | some p =>
    let b := byte.toNat
    if p.least ≤ b ∧ b ≤ p.greatest then
      let code := 64 * p.code + (b - 0x80)
      if p.more ≤ 1 then r.emit (Char.ofNat code)
      else { r with underway := some ⟨code, p.more - 1, 0x80, 0xBF⟩ }
    else (r.emit replacement).start byte

/-- The text at the end of the bytes. -/
def finish (r : Reading) : String :=
  match r.underway with
  | none => String.ofList r.out.reverse
  | some _ => String.ofList (replacement :: r.out).reverse

end Reading

/-! ## 2. All bytes -/

/-- The text of any bytes. -/
def decodeLossy (bytes : List UInt8) : String :=
  (bytes.foldl Reading.push ⟨[], none⟩).finish

end TankArena.Utf8
