import TankArena.Json.Value

/-!
# The tokens of a JSON text

A text is cut into brackets, marks, words, numbers and quoted texts; blanks between them are
skipped.  Each token takes as many characters as it can.  Whether the tokens make a value is left
to `Json.ofTokens?`: two numbers or words without a blank between them are two tokens here and no
value there.
-/

namespace TankArena.Json

/-- A token of a JSON text. -/
inductive Token where
  | openArray
  | closeArray
  | openObject
  | closeObject
  | comma
  | colon
  | null
  | bool (b : Bool)
  | number (n : Numeral)
  | quoted (q : Quoted)
  deriving Repr, DecidableEq

/-- The blanks of JSON: space, tab, line feed and carriage return. -/
def isBlank (c : Char) : Bool := c == ' ' || c == '\t' || c == '\n' || c == '\r'

namespace Quoted

/-- The pieces up to the closing quotation mark, put in front of `out` in reverse, and what follows
the mark.  Control characters are refused, and so is an escape that the grammar does not know. -/
def scanPieces : List Char → List Piece → Option (Quoted × List Char)
  | [], _ => none
  | c :: rest, out =>
    if c = '"' then some (⟨out.reverse⟩, rest)
    else if c = '\\' then
      match rest with
      | [] => none
      | e :: rest =>
        if e = 'u' then
          match rest with
          | h₁ :: h₂ :: h₃ :: h₄ :: rest =>
            if (Piece.unit? h₁ h₂ h₃ h₄).isSome then scanPieces rest (.unit h₁ h₂ h₃ h₄ :: out)
            else none
          | _ => none
        else if (Piece.shortChar? e).isSome then scanPieces rest (.short e :: out)
        else none
    else if c.toNat < 0x20 then none
    else scanPieces rest (.plain c :: out)

end Quoted

namespace Token

/-- What follows a word at the start of a text. -/
def afterWord? (s : String) (cs : List Char) : Option (List Char) :=
  if (word s).isPrefixOf cs then some (cs.drop (word s).length) else none

/-- The token at the start of a text, and the rest. -/
def scan? : List Char → Option (Token × List Char)
  | [] => none
  | c :: rest =>
    if c = '[' then some (.openArray, rest)
    else if c = ']' then some (.closeArray, rest)
    else if c = '\x7b' then some (.openObject, rest)
    else if c = '\x7d' then some (.closeObject, rest)
    else if c = ',' then some (.comma, rest)
    else if c = ':' then some (.colon, rest)
    else if c = '"' then (Quoted.scanPieces rest []).map fun (q, rest) => (.quoted q, rest)
    else if c = 'n' then (afterWord? "null" (c :: rest)).map fun rest => (.null, rest)
    else if c = 't' then (afterWord? "true" (c :: rest)).map fun rest => (.bool true, rest)
    else if c = 'f' then (afterWord? "false" (c :: rest)).map fun rest => (.bool false, rest)
    else (Numeral.scan? (c :: rest)).map fun (n, rest) => (.number n, rest)

/-- The tokens of a text, put in front of `out` in reverse; each step takes at least one character
of it, so a fuel beyond its length is never used up. -/
def scanAll : Nat → List Char → List Token → Option (List Token)
  | 0, _, _ => none
  | fuel + 1, cs, out =>
    match cs.dropWhile isBlank with
    | [] => some out.reverse
    | cs =>
      match scan? cs with
      | none => none
      | some (t, rest) => scanAll fuel rest (t :: out)

/-- The tokens of a text. -/
def ofText? (cs : List Char) : Option (List Token) := scanAll (cs.length + 1) cs []

end Token

end TankArena.Json
