import TankArena.Json.Token

/-!
# Reading a JSON text

A value is built from its tokens by a machine with a stack of open containers, one step for each
token, so a text may be nested as deeply as it likes.
-/

namespace TankArena.Json

/-! ## 1. The machine -/

/-- An open container and what it holds so far, the last item first. -/
inductive Level where
  | array (items : List Json)
  /-- An object whose next member has its name already. -/
  | object (members : List (Quoted × Json)) (name : Quoted)

/-- Where the reading of a value stands; `outer` are the open containers, the innermost first. -/
inductive Building where
  /-- A value has to come. -/
  | value (outer : List Level)
  /-- An array was opened: an item or the closing bracket has to come. -/
  | firstItem (outer : List Level)
  /-- An object was opened: a name or the closing brace has to come. -/
  | firstName (outer : List Level)
  /-- A member was followed by a comma: a name has to come. -/
  | nextName (members : List (Quoted × Json)) (outer : List Level)
  /-- A name was read: a colon has to come. -/
  | colon (members : List (Quoted × Json)) (name : Quoted) (outer : List Level)
  /-- A value is complete. -/
  | done (v : Json) (outer : List Level)

namespace Building

/-- The step on a token where a value has to come. -/
def start (outer : List Level) : Token → Option Building
  | .null => some (.done .null outer)
  | .bool b => some (.done (.bool b) outer)
  | .number n => some (.done (.number n) outer)
  | .quoted q => some (.done (.string q) outer)
  | .openArray => some (.firstItem outer)
  | .openObject => some (.firstName outer)
  | _ => none

/-- The step on a token after a complete value. -/
def after (v : Json) : List Level → Token → Option Building
  | .array items :: outer, .comma => some (.value (.array (v :: items) :: outer))
  | .array items :: outer, .closeArray => some (.done (.array (v :: items).reverse) outer)
  | .object members name :: outer, .comma => some (.nextName ((name, v) :: members) outer)
  | .object members name :: outer, .closeObject =>
    some (.done (.object ((name, v) :: members).reverse) outer)
  | _, _ => none

/-- One step of the machine. -/
def step : Building → Token → Option Building
  | .value outer, t => start outer t
  | .firstItem outer, .closeArray => some (.done (.array []) outer)
  | .firstItem outer, t => start (.array [] :: outer) t
  | .firstName outer, .closeObject => some (.done (.object []) outer)
  | .firstName outer, .quoted q => some (.colon [] q outer)
  | .nextName members outer, .quoted q => some (.colon members q outer)
  | .colon members q outer, .colon => some (.value (.object members q :: outer))
  | .done v outer, t => after v outer t
  | _, _ => none

end Building

/-! ## 2. Values of texts -/

/-- The value that a list of tokens makes. -/
def ofTokens? (ts : List Token) : Option Json :=
  match ts.foldlM Building.step (.value []) with
  | some (.done v []) => some v
  | _ => none

/-- The value that a text writes; nothing but blanks may stand around it. -/
def ofChars? (cs : List Char) : Option Json := (Token.ofText? cs).bind ofTokens?

/-- The value that a text writes. -/
def parse? (s : String) : Option Json := ofChars? s.toList

end TankArena.Json
