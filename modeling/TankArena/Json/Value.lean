import TankArena.Decimal.Numeral

/-!
# JSON values, as written

A value keeps its numbers and its quoted texts as they are written.  What a number is worth and
what a quoted text says are questions for whoever reads the value: a well-formed value may hold
a number beyond the largest double or a quoted text that says nothing, and neither matters where
the value is skipped.
-/

namespace TankArena.Json

/-! ## 1. Quoted text -/

/-- One element of a quoted text. -/
inductive Piece where
  /-- A character that stands for itself. -/
  | plain (c : Char)
  /-- A backslash and one more character. -/
  | short (c : Char)
  /-- A backslash, the letter `u` and four hexadecimal digits. -/
  | unit (a b c d : Char)
  deriving Repr, DecidableEq

/-- The value of a hexadecimal digit of either case. -/
def hexDigit? (c : Char) : Option Nat :=
  if c.isDigit then some (c.toNat - 48)
  else if 'a' ≤ c && c ≤ 'f' then some (c.toNat - 87)
  else if 'A' ≤ c && c ≤ 'F' then some (c.toNat - 55)
  else none

namespace Piece

/-- The character that a short escape stands for. -/
def shortChar? (c : Char) : Option Char :=
  if c = '"' ∨ c = '\\' ∨ c = '/' then some c
  else if c = 'b' then some '\x08'
  else if c = 'f' then some '\x0c'
  else if c = 'n' then some '\n'
  else if c = 'r' then some '\r'
  else if c = 't' then some '\t'
  else none

/-- The 16-bit unit that four hexadecimal digits name. -/
def unit? (a b c d : Char) : Option Nat := do
  return 4096 * (← hexDigit? a) + 256 * (← hexDigit? b) + 16 * (← hexDigit? c) + (← hexDigit? d)

/-- The characters of a piece. -/
def text : Piece → List Char
  | plain c => [c]
  | short c => ['\\', c]
  | unit a b c d => ['\\', 'u', a, b, c, d]

end Piece

/-- What stands between two quotation marks. -/
structure Quoted where
  pieces : List Piece
  deriving Repr, DecidableEq

namespace Quoted

/-- Whether a 16-bit unit opens a pair that stands for one character. -/
def isHigh (n : Nat) : Bool := decide (0xD800 ≤ n) && decide (n ≤ 0xDBFF)

/-- Whether a 16-bit unit closes a pair that stands for one character. -/
def isLow (n : Nat) : Bool := decide (0xDC00 ≤ n) && decide (n ≤ 0xDFFF)

/-- The characters that the pieces stand for, put in front of `out` in reverse.  A half of a pair
must be followed by its other half at once. -/
def decode : List Piece → List Char → Option (List Char)
  | [], out => some out.reverse
  | .plain c :: rest, out => decode rest (c :: out)
  | .short c :: rest, out =>
    match Piece.shortChar? c with
    | none => none
    | some c => decode rest (c :: out)
  | .unit a b c d :: rest, out =>
    match Piece.unit? a b c d with
    | none => none
    | some n =>
      if isHigh n then
        match rest with
        | .unit a b c d :: rest =>
          match Piece.unit? a b c d with
          | none => none
          | some m =>
            if isLow m then
              decode rest (Char.ofNat (0x10000 + 1024 * (n - 0xD800) + (m - 0xDC00)) :: out)
            else none
        | _ => none
      else if isLow n then none
      else decode rest (Char.ofNat n :: out)

/-- What a quoted text says; nothing if it names half of a pair alone. -/
def text? (q : Quoted) : Option String := (decode q.pieces []).map String.ofList

/-- The digit of a number below sixteen, in lower case. -/
def hexChar (n : Nat) : Char := if n < 10 then Char.ofNat (48 + n) else Char.ofNat (87 + n)

/-- How a character is quoted: the two marks of the grammar and the controls that have a letter
by a short escape, the other controls by their unit, all else as it is. -/
def piece (c : Char) : Piece :=
  if c = '"' ∨ c = '\\' then .short c
  else if c = '\x08' then .short 'b'
  else if c = '\x0c' then .short 'f'
  else if c = '\n' then .short 'n'
  else if c = '\r' then .short 'r'
  else if c = '\t' then .short 't'
  else if c.toNat < 0x20 then .unit '0' '0' (hexChar (c.toNat / 16)) (hexChar (c.toNat % 16))
  else .plain c

/-- A text, quoted. -/
def ofString (s : String) : Quoted := ⟨s.toList.map piece⟩

/-- The characters of a quoted text, its marks included. -/
def text (q : Quoted) : List Char := '"' :: (q.pieces.flatMap Piece.text ++ ['"'])

end Quoted

end TankArena.Json

namespace TankArena

/-! ## 2. Values -/

/-- A JSON value as it is written, white space apart. -/
inductive Json where
  | null
  | bool (b : Bool)
  | number (n : Numeral)
  | string (q : Json.Quoted)
  | array (items : List Json)
  | object (members : List (Json.Quoted × Json))

namespace Json

/-- A text as a value. -/
def ofString (s : String) : Json := .string (Quoted.ofString s)

/-- A whole number as a value. -/
def ofNat (n : Nat) : Json := .number (Numeral.ofNat n)

/-- An object with these members, in this order. -/
def ofMembers (ms : List (String × Json)) : Json :=
  .object (ms.map fun m => (Quoted.ofString m.1, m.2))

/-! ## 3. Writing -/

/-- The characters of a literal word. -/
def word (s : String) : List Char := s.toList

mutual

/-- The characters of a value, without white space between its tokens. -/
def text : Json → List Char
  | .null => word "null"
  | .bool true => word "true"
  | .bool false => word "false"
  | .number n => n.text
  | .string q => q.text
  | .array [] => ['[', ']']
  | .array (v :: items) => '[' :: (text v ++ itemsText items)
  | .object [] => ['\x7b', '\x7d']
  | .object (m :: members) => '\x7b' :: (memberText m ++ membersText members)

/-- The further items of an array, and its closing bracket. -/
def itemsText : List Json → List Char
  | [] => [']']
  | v :: items => ',' :: (text v ++ itemsText items)

/-- A member: its name, a colon, its value. -/
def memberText : Quoted × Json → List Char
  | (name, v) => name.text ++ ':' :: text v

/-- The further members of an object, and its closing brace. -/
def membersText : List (Quoted × Json) → List Char
  | [] => ['\x7d']
  | m :: members => ',' :: (memberText m ++ membersText members)

end

/-- A value as a text. -/
def render (v : Json) : String := String.ofList v.text

end Json

end TankArena
