import NodeGraph.Document.Malformed

/-!
# Reading

A reader takes a value off the front of a text, or tells the first fault it meets. Every fault is
found from left to right, so of two faults the one that stands first is told.

`items` and `members` read the inside of a list and of an object after its opening bracket. What an
element or a member is, is left to the reader they are given; a member is given its key, and starts
before the colon. Every round of their loops takes at least one character off the text, so they walk
along the text they started with (`clock`) and end no later than it does.
-/

namespace NodeGraph.Document

/-- Takes a value off the front of a text. -/
abbrev Reader (α : Type) := List Char → Except Malformed (α × List Char)

/-! ### Characters -/

/-- The blanks of a document. -/
def isBlank (c : Char) : Bool := c == ' ' || c == '\n' || c == '\t' || c == '\r'

/-- A text from its first character that is no blank. -/
def skipBlanks (text : List Char) : List Char := text.dropWhile isBlank

/-- The value of a digit of base sixteen, in small or capital letters. -/
def hexValue? (c : Char) : Option Nat :=
  let n := c.toNat
  if 0x30 ≤ n ∧ n ≤ 0x39 then some (n - 0x30)
  else if 0x61 ≤ n ∧ n ≤ 0x66 then some (n - 0x61 + 10)
  else if 0x41 ≤ n ∧ n ≤ 0x46 then some (n - 0x41 + 10)
  else none

/-- Go past the rest of a word. -/
def word : List Char → List Char → Except Malformed (List Char)
  | [], text => .ok text
  | _ :: _, [] => .error .endInValue
  | c :: rest, d :: text => if c = d then word rest text else .error .expectedWord

/-- Go past the colon after a key. -/
def colon (text : List Char) : Except Malformed (List Char) :=
  match skipBlanks text with
  | [] => .error .endInObject
  | ':' :: rest => .ok rest
  | _ => .error .expectedColon

/-! ### Strings -/

/-- Four digits of base sixteen, as a number. Too few characters end the string; they are counted in
bytes. -/
def hexFour : Reader Nat
  | a :: b :: c :: d :: rest =>
    match hexValue? a, hexValue? b, hexValue? c, hexValue? d with
    | some a, some b, some c, some d => .ok (((a * 16 + b) * 16 + c) * 16 + d, rest)
    | _, _, _, _ => .error .invalidEscape
  | few =>
    if (String.ofList few).utf8ByteSize < 4 then .error .endInString else .error .invalidEscape

/-- The character that a letter after a backslash stands for. -/
def escaped? : Char → Option Char
  | '"' => some '"'
  | '\\' => some '\\'
  | '/' => some '/'
  | 'b' => some '\x08'
  | 'f' => some '\x0c'
  | 'n' => some '\n'
  | 'r' => some '\r'
  | 't' => some '\t'
  | _ => none

/-- Whether a code unit is the first of a surrogate pair. -/
def isLeading (n : Nat) : Bool := decide (0xd800 ≤ n ∧ n ≤ 0xdbff)

/-- Whether a code unit is the second of a surrogate pair. -/
def isTrailing (n : Nat) : Bool := decide (0xdc00 ≤ n ∧ n ≤ 0xdfff)

/-- The character of a numbered escape, after `\u`. Beyond the basic plane it takes two of them. -/
def unicodeEscape : Reader Char := fun text => do
  let (n, rest) ← hexFour text
  if isTrailing n then throw .loneSurrogate
  else if isLeading n then
    match rest with
    | [] => throw .endInString
    | '\\' :: [] => throw .endInString
    | '\\' :: 'u' :: rest =>
      let (m, rest) ← hexFour rest
      if isTrailing m then return (Char.ofNat (0x10000 + (n - 0xd800) * 0x400 + (m - 0xdc00)), rest)
      else throw .loneSurrogate
    | _ => throw .unfinishedPair
  else return (Char.ofNat n, rest)

/-- A numbered escape of which only the digits are looked at. -/
def looseUnicodeEscape : Reader Char := fun text => do
  let (n, rest) ← hexFour text
  return (Char.ofNat n, rest)

/-- The next character of a string, or nothing at its closing quotation mark. -/
def stringStep (unicode : Reader Char) : Reader (Option Char)
  | [] => .error .endInString
  | '"' :: rest => .ok (none, rest)
  | '\\' :: [] => .error .endInString
  | '\\' :: 'u' :: rest => do
    let (c, rest) ← unicode rest
    return (some c, rest)
  | '\\' :: c :: rest =>
    match escaped? c with
    | some d => .ok (some d, rest)
    | none => .error .invalidEscape
  | c :: rest => if c.toNat < 0x20 then .error .controlCharacter else .ok (some c, rest)

/-- The characters of a string after its opening quotation mark. -/
def stringWithin (unicode : Reader Char) : (clock : List Char) → Reader (List Char)
  | [], _ => .error .endInString
  | _ :: clock, text => do
    match ← stringStep unicode text with
    | (none, rest) => return ([], rest)
    | (some c, rest) =>
      let (cs, rest) ← stringWithin unicode clock rest
      return (c :: cs, rest)

/-- A string after its opening quotation mark. -/
def string : Reader String := fun text => do
  let (cs, rest) ← stringWithin unicodeEscape text text
  return (String.ofList cs, rest)

/-- Go past a string after its opening quotation mark, whatever its escapes stand for. -/
def skipString (text : List Char) : Except Malformed (List Char) := do
  let (_, rest) ← stringWithin looseUnicodeEscape text text
  return rest

/-! ### Lists -/

/-- The elements after the first one, and the end of the list. -/
def moreItems {α : Type} (item : Reader α) : (clock : List Char) → Reader (List α)
  | [], _ => .error .endInList
  | _ :: clock, text =>
    match skipBlanks text with
    | [] => .error .endInList
    | ']' :: rest => .ok ([], rest)
    | ',' :: rest =>
      match skipBlanks rest with
      | [] => .error .endInValue
      | ']' :: _ => .error .trailingComma
      | rest => do
        let (x, rest) ← item rest
        let (xs, rest) ← moreItems item clock rest
        return (x :: xs, rest)
    | _ => .error .expectedListEnd

/-- The elements of a list after its opening bracket. -/
def items {α : Type} (item : Reader α) : Reader (List α) := fun text =>
  match skipBlanks text with
  | [] => .error .endInList
  | ']' :: rest => .ok ([], rest)
  | text => do
    let (x, rest) ← item text
    let (xs, rest) ← moreItems item rest rest
    return (x :: xs, rest)

/-! ### Objects -/

/-- The members after the first one, and the end of the object. -/
def moreMembers {σ : Type} (member : σ → String → Reader σ) : (clock : List Char) → σ → Reader σ
  | [], _, _ => .error .endInObject
  | _ :: clock, state, text =>
    match skipBlanks text with
    | [] => .error .endInObject
    | '\x7d' :: rest => .ok (state, rest)
    | ',' :: rest =>
      match skipBlanks rest with
      | [] => .error .endInValue
      | '\x7d' :: _ => .error .trailingComma
      | '"' :: rest => do
        let (key, rest) ← string rest
        let (state, rest) ← member state key rest
        moreMembers member clock state rest
      | _ => .error .keyNotString
    | _ => .error .expectedObjectEnd

/-- The members of an object after its opening bracket, each carrying the state on. -/
def members {σ : Type} (member : σ → String → Reader σ) (state : σ) : Reader σ := fun text =>
  match skipBlanks text with
  | [] => .error .endInObject
  | '\x7d' :: rest => .ok (state, rest)
  | '"' :: rest => do
    let (key, rest) ← string rest
    let (state, rest) ← member state key rest
    moreMembers member rest state rest
  | _ => .error .keyNotString

end NodeGraph.Document
