import NodeGraph.Binary64.Layout
import NodeGraph.Diagnostic
import NodeGraph.Text.Quoted

/-!
# Malformed documents

Why a text is not the document of a graph: a fault of its syntax, or a value that is not what its
place asks for. `Malformed.message` is the wording.
-/

namespace NodeGraph

namespace Document

/-- Numbers in a document: positional when the first digit stands between `10⁻⁵` and `10¹⁵`, and
then always with a fraction; otherwise with a signed exponent. What is not finite has no number. -/
def numberLayout : Binary64.Layout where
  positional leading := decide (-5 ≤ leading ∧ leading ≤ 15)
  wholeSuffix := ".0"
  exponentSign := "+"
  tie := .even
  notANumber := "null"
  infinite _ := "null"

/-- What was found in a place. -/
inductive Found where
  | null
  | boolean (value : Bool)
  | integer (value : Int)
  | float (value : Binary64)
  | string (value : String)
  | sequence
  | map
deriving DecidableEq

/-- A name between the quotation marks that messages use. -/
def ticked (name : String) : String := "`" ++ name ++ "`"

/-- The wording of what was found. -/
def Found.text : Found → String
  | .null => "null"
  | .boolean value => "boolean " ++ ticked (if value then "true" else "false")
  | .integer value => "integer " ++ ticked (toString value)
  | .float value => "floating point " ++ ticked (numberLayout.write value)
  | .string value => "string " ++ Text.quoted value
  | .sequence => "sequence"
  | .map => "map"

/-- What a place asks for. -/
inductive Expected where
  /-- The document of a graph. -/
  | graph
  /-- A list with the nodes of a graph in it. -/
  | graphItem
  /-- A node. -/
  | node
  /-- The id of a node. -/
  | nodeId
  /-- Nothing beside the name of a domain. -/
  | unit
  /-- The name of a kind. -/
  | variantName
  /-- The number of a kind. -/
  | variantIndex
  | string
  | number
  | sequence
deriving DecidableEq

/-- The wording of what a place asks for. -/
def Expected.text : Expected → String
  | .graph => "struct GraphDocument"
  | .graphItem => "struct GraphDocument with 1 element"
  | .node => "struct Node"
  | .nodeId => "u32"
  | .unit => "unit"
  | .variantName => "variant identifier"
  | .variantIndex => "variant index 0 <= i < 9"
  | .string => "a string"
  | .number => "f64"
  | .sequence => "a sequence"

/-- Why a text is not the document of a graph. -/
inductive Malformed where
  /-- The text ends inside a list. -/
  | endInList
  /-- The text ends inside an object. -/
  | endInObject
  /-- The text ends inside a string. -/
  | endInString
  /-- The text ends where a value should stand. -/
  | endInValue
  /-- A key is not followed by a colon. -/
  | expectedColon
  /-- An element is not followed by a comma or the end of its list. -/
  | expectedListEnd
  /-- A member is not followed by a comma or the end of its object. -/
  | expectedObjectEnd
  /-- A word is not one of the three there are. -/
  | expectedWord
  /-- No value starts here. -/
  | expectedValue
  /-- A backslash is not followed by what it can escape. -/
  | invalidEscape
  /-- Digits are missing, or follow a leading zero. -/
  | invalidNumber
  /-- A number is too large. -/
  | numberOutOfRange
  /-- A control character stands in a string. -/
  | controlCharacter
  /-- The key of a member is not a string. -/
  | keyNotString
  /-- A surrogate is not part of a pair. -/
  | loneSurrogate
  /-- The first surrogate of a pair is not followed by an escape. -/
  | unfinishedPair
  /-- The last element or member is followed by a comma. -/
  | trailingComma
  /-- Something follows the document. -/
  | trailingCharacters
  /-- Brackets are nested too deep. -/
  | tooDeep
  /-- A value has the wrong type. -/
  | invalidType (found : Found) (expected : Expected)
  /-- A value has the right type, but is not allowed. -/
  | invalidValue (found : Found) (expected : Expected)
  /-- A list has the wrong length. -/
  | invalidLength (length : Nat) (expected : Expected)
  /-- A name is none of those there are. -/
  | unknownVariant (name : String) (choices : List String)
  /-- A key occurs twice. -/
  | duplicateField (name : String)
  /-- A key does not occur. -/
  | missingField (name : String)
deriving DecidableEq

/-- The wording of a choice of names. -/
def choiceText : List String → String
  | [a, b] => ticked a ++ " or " ++ ticked b
  | names => "one of " ++ String.intercalate ", " (names.map ticked)

/-- The wording of a fault. -/
def Malformed.message : Malformed → String
  | .endInList => "EOF while parsing a list"
  | .endInObject => "EOF while parsing an object"
  | .endInString => "EOF while parsing a string"
  | .endInValue => "EOF while parsing a value"
  | .expectedColon => "expected `:`"
  | .expectedListEnd => "expected `,` or `]`"
  | .expectedObjectEnd => "expected `,` or `\x7d`"
  | .expectedWord => "expected ident"
  | .expectedValue => "expected value"
  | .invalidEscape => "invalid escape"
  | .invalidNumber => "invalid number"
  | .numberOutOfRange => "number out of range"
  | .controlCharacter => "control character (\\u0000-\\u001F) found while parsing a string"
  | .keyNotString => "key must be a string"
  | .loneSurrogate => "lone leading surrogate in hex escape"
  | .unfinishedPair => "unexpected end of hex escape"
  | .trailingComma => "trailing comma"
  | .trailingCharacters => "trailing characters"
  | .tooDeep => "recursion limit exceeded"
  | .invalidType found expected =>
    "invalid type: " ++ found.text ++ ", expected " ++ expected.text
  | .invalidValue found expected =>
    "invalid value: " ++ found.text ++ ", expected " ++ expected.text
  | .invalidLength length expected =>
    "invalid length " ++ toString length ++ ", expected " ++ expected.text
  | .unknownVariant name choices =>
    "unknown variant " ++ ticked name ++ ", expected " ++ choiceText choices
  | .duplicateField name => "duplicate field " ++ ticked name
  | .missingField name => "missing field " ++ ticked name

/-- The diagnostic of a malformed document. -/
def Malformed.diagnostic (fault : Malformed) : Diagnostic :=
  (Diagnostic.error .malformed ("invalid graph document: " ++ fault.message)).withHint
    "expected \x7b\"nodes\": [\x7b\"id\": 0, \"kind\": \"constant\", ...\x7d]\x7d"

end Document

end NodeGraph
