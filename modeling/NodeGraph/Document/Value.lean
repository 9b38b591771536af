import NodeGraph.Document.Number

/-!
# Values

A value of a document that is set aside to be looked at later. It is read completely, so every fault
of its syntax is found when it is met. Brackets may be nested in it as deep as the room that is left
for them.
-/

namespace NodeGraph.Document

/-- A value of a document. -/
inductive Value where
  | null
  | boolean (value : Bool)
  | number (value : Number)
  | string (value : String)
  | sequence (items : List Value)
  | map (members : List (String × Value))

/-- A number, as something found. -/
def Number.found : Number → Found
  | .integer value => .integer value
  | .float value => .float value

/-- A value, as something found. -/
def Value.found : Value → Found
  | .null => .null
  | .boolean value => .boolean value
  | .number value => value.found
  | .string value => .string value
  | .sequence _ => .sequence
  | .map _ => .map

/-! ### Values without brackets -/

/-- A value without brackets, at the front of a text. -/
def scalar : Reader Value
  | 'n' :: rest => do return (.null, ← word ['u', 'l', 'l'] rest)
  | 't' :: rest => do return (.boolean true, ← word ['r', 'u', 'e'] rest)
  | 'f' :: rest => do return (.boolean false, ← word ['a', 'l', 's', 'e'] rest)
  | '"' :: rest => do
    let (s, rest) ← string rest
    return (.string s, rest)
  | '-' :: rest => do
    let (n, rest) ← number true rest
    return (.number n, rest)
  | c :: rest =>
    if c.isDigit then do
      let (n, rest) ← number false (c :: rest)
      return (.number n, rest)
    else .error .expectedValue
  | [] => .error .endInValue

/-- The fault of a text whose first value is not what its place asks for. Of a list or an object
only the bracket is looked at. -/
def mismatch (expected : Expected) (text : List Char) : Malformed :=
  match text with
  | '[' :: _ => .invalidType .sequence expected
  | '\x7b' :: _ => .invalidType .map expected
  | text =>
    match scalar text with
    | .ok (value, _) => .invalidType value.found expected
    | .error fault => fault

/-! ### All values -/

/-- A value, with room for so many more brackets inside each other. -/
def value : (room : Nat) → Reader Value
  | room, text =>
    match skipBlanks text, room with
    | '[' :: _, 0 => .error .tooDeep
    | '\x7b' :: _, 0 => .error .tooDeep
    | '[' :: rest, room + 1 => do
      let (xs, rest) ← items (value room) rest
      return (.sequence xs, rest)
    | '\x7b' :: rest, room + 1 => do
      let (ms, rest) ←
        members (fun ms key text => do
          let text ← colon text
          let (x, rest) ← value room text
          return (ms ++ [(key, x)], rest)) [] rest
      return (.map ms, rest)
    | text, _ => scalar text

end NodeGraph.Document
