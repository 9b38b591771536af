/-!
# Texts without terminal controls

A terminal takes some characters of a text as orders: the controls, and the sequences that an escape
begins. A text that does not go to a terminal is written without them. Of the controls only the tab,
the line feed, the form feed and the carriage return are kept.

A sequence is an escape with one more character, a command that `[` opens, or a string that another
character opens. White space that stands in the middle of an escape or a command is kept, and so is
what follows it, up to the next control that is not kept; there the sequence goes on.

A text that goes to a terminal may set parts of it off by such commands (`styled`).
-/

namespace NodeGraph.Text

/-- How much of a sequence has been met. -/
inductive Sequence where
  /-- None of it. -/
  | none
  /-- The escape. -/
  | escape
  /-- The escape and characters that select among its meanings. -/
  | selected
  /-- The opening of a command. -/
  | command
  /-- The opening of a string for a device. -/
  | device
  /-- Parameters of a string for a device. -/
  | deviceParameters
  /-- The parameters of a string for a device, and characters that select among its meanings. -/
  | deviceSelected
  /-- A part of a string that a string terminator ends. -/
  | string
  /-- A part of a string that a bell ends. -/
  | title
deriving DecidableEq

/-- Whether a character selects among the meanings of a sequence. -/
def isSelector (c : Char) : Bool := decide (0x20 ≤ c.toNat ∧ c.toNat ≤ 0x2f)

/-- Whether a character is a parameter of a sequence, or stands between two of them. -/
def isParameter (c : Char) : Bool := decide (0x30 ≤ c.toNat ∧ c.toNat ≤ 0x3b)

/-- Whether a character marks the parameters of a sequence as private. -/
def isPrivate (c : Char) : Bool := decide (0x3c ≤ c.toNat ∧ c.toNat ≤ 0x3f)

/-- Whether a character ends a command. -/
def isFinal (c : Char) : Bool := decide (0x40 ≤ c.toNat ∧ c.toNat ≤ 0x7e)

/-- Whether a byte of a character is the string terminator. -/
def holdsTerminator (c : Char) : Bool := (String.utf8EncodeChar c).contains 0x9c

namespace Sequence

/-- What has been met of a sequence after one more character of it. -/
def next (s : Sequence) (c : Char) : Sequence :=
  match s with
  | none => none
  | escape =>
    if isSelector c then selected
    else if c = '[' then command
    else if c = ']' then title
    else if c = 'P' then device
    else if c = 'X' ∨ c = '^' ∨ c = '_' then string
    else if isParameter c || isPrivate c || isFinal c then none
    else escape
  | selected => if isParameter c || isPrivate c || isFinal c then none else selected
  | command => if isFinal c then none else command
  | device =>
    if isSelector c then deviceSelected
    else if isParameter c || isPrivate c then deviceParameters
    else if isFinal c then string
    else device
  | deviceParameters =>
    if isSelector c then deviceSelected
    else if isPrivate c || isFinal c then string
    else deviceParameters
  | deviceSelected =>
    if isParameter c || isPrivate c || isFinal c then string else deviceSelected
  | string => if holdsTerminator c then none else string
  | title => if c = '\x07' then none else title

/-- Whether white space in the middle of a sequence is kept. -/
def keepsSpacing : Sequence → Bool
  | none | escape | selected | command => true
  | device | deviceParameters | deviceSelected | string | title => false

end Sequence

/-- Whether a character is a control that is kept. -/
def isSpacing (c : Char) : Bool := c == '\t' || c == '\n' || c == '\x0c' || c == '\r'

/-- Whether a character is kept outside of sequences. -/
def isKept (c : Char) : Bool := (decide (0x20 ≤ c.toNat) && c != '\x7f') || isSpacing c

/-- Where the reading of a text is. -/
structure Position where
  sequence : Sequence
  /-- Whether the sequence is interrupted by a text that is kept. -/
  interrupted : Bool
deriving DecidableEq

namespace Position

/-- The start of a text. -/
def start : Position := ⟨.none, false⟩

/-- The position after a character, and whether the character is kept. -/
def next (p : Position) (c : Char) : Position × Bool :=
  if c = '\x1b' then (⟨.escape, false⟩, false)
  else if c = '\x18' ∨ c = '\x1a' then (start, false)
  else if p.sequence = .none ∨ p.interrupted then
    if 0x80 ≤ c.toNat then (start, true)
    else if isKept c then (p, true)
    else (⟨p.sequence, false⟩, false)
  else if isSpacing c && p.sequence.keepsSpacing then (⟨p.sequence, true⟩, true)
  else (⟨p.sequence.next c, false⟩, false)

/-- What is kept of a text from a position on. -/
def keep : Position → List Char → List Char
  | _, [] => []
  | p, c :: rest =>
    let (after, kept) := p.next c
    if kept then c :: keep after rest else keep after rest

end Position

/-- A text without terminal controls. -/
def plain (text : String) : String := String.ofList (Position.start.keep text.toList)

/-! ### Styles -/

/-- How a terminal sets a text off. -/
inductive Style where
  /-- The word that opens the message of a fault. -/
  | fault
  /-- What is to be typed as it stands. -/
  | literal
  /-- What somebody has typed and should not have. -/
  | invalid
deriving DecidableEq

/-- The parameters of the command that turns a style on. -/
def Style.code : Style → String
  | .fault => "1;31"
  | .literal => "1"
  | .invalid => "33"

/-- A text that a terminal sets off. -/
def styled (style : Style) (text : String) : String :=
  "\x1b[" ++ style.code ++ "m" ++ text ++ "\x1b[0m"

end NodeGraph.Text
