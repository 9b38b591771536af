import NodeGraph.Document.Number

/-!
# Values that are passed over

A value that nobody asks for is passed over by its form alone: brackets may be nested to any depth,
a number may have any size, and an escape in a string need not stand for a character. The brackets
that are open are kept on a stack (`Frame`). A comma with nothing after it is no fault of its own
here: what is told is that a value, or a key, does not start where one should.
-/

namespace NodeGraph.Document

/-- An open bracket. -/
inductive Frame where
  | list
  | object
deriving DecidableEq

/-- Go past a value without brackets. -/
def skipScalar : List Char → Except Malformed (List Char)
  | 'n' :: rest => word ['u', 'l', 'l'] rest
  | 't' :: rest => word ['r', 'u', 'e'] rest
  | 'f' :: rest => word ['a', 'l', 's', 'e'] rest
  | '"' :: rest => skipString rest
  | '-' :: rest => do
    let (_, rest) ← numberParts .invalidNumber true rest
    return rest
  | c :: rest =>
    if c.isDigit then do
      let (_, rest) ← numberParts .invalidNumber false (c :: rest)
      return rest
    else .error .expectedValue
  | [] => .error .endInValue

/-- Go past a key and its colon. -/
def skipKey (text : List Char) : Except Malformed (List Char) :=
  match skipBlanks text with
  | [] => .error .endInObject
  | '"' :: rest => do colon (← skipString rest)
  | _ => .error .keyNotString

/-- After a value inside some brackets: close those that end here, and go up to the next value. No
brackets are left when there is none. -/
def afterValue : List Frame → Reader (List Frame)
  | [], text => .ok ([], text)
  | .list :: outer, text =>
    match skipBlanks text with
    | [] => .error .endInList
    | ']' :: rest => afterValue outer rest
    | ',' :: rest => .ok (.list :: outer, rest)
    | _ => .error .expectedListEnd
  | .object :: outer, text =>
    match skipBlanks text with
    | [] => .error .endInObject
    | '\x7d' :: rest => afterValue outer rest
    | ',' :: rest => do return (.object :: outer, ← skipKey rest)
    | _ => .error .expectedObjectEnd

/-- At a value inside some brackets: open the bracket that it starts with, or go past it. -/
def skipStep (frames : List Frame) : Reader (List Frame) := fun text =>
  match skipBlanks text with
  | '[' :: rest =>
    match skipBlanks rest with
    | [] => .error .endInList
    | ']' :: rest => afterValue frames rest
    | rest => .ok (.list :: frames, rest)
  | '\x7b' :: rest =>
    match skipBlanks rest with
    | [] => .error .endInObject
    | '\x7d' :: rest => afterValue frames rest
    | rest => do return (.object :: frames, ← skipKey rest)
  | text => do afterValue frames (← skipScalar text)

/-- Go past a value inside some brackets and all that follows it up to the outermost one. -/
def skipWithin : (clock : List Char) → List Frame → List Char → Except Malformed (List Char)
  | [], _, _ => .error .endInValue
  | _ :: clock, frames, text => do
    match ← skipStep frames text with
    | ([], rest) => return rest
    | (frames, rest) => skipWithin clock frames rest

/-- Go past a value. -/
def skipValue (text : List Char) : Except Malformed (List Char) :=
  skipWithin text [] text

end NodeGraph.Document
