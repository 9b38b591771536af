import NodeGraph.Document.Value
import NodeGraph.Node

/-!
# Kinds in a document

The kind of a node is told by its member `kind`, a name or a number, and by the members of its
payload, which may stand before or after it and among others that nobody asks for. They are looked
at when all members of the node were read. The kind comes first; then the members of its payload in
the order in which they stand, each for its type and for being there once; then those that are
missing and have no default.
-/

namespace NodeGraph.Document

/-! ### The name of a kind -/

/-- The kinds, without their payload. -/
inductive KindName where
  | input
  | constant
  | math
  | wave
  | polar
  | valueOutput
  | bufferOutput
  | audioOutput
  | other
deriving DecidableEq

namespace KindName

/-- The kinds in the order in which they are numbered. -/
def all : List KindName :=
  [.input, .constant, .math, .wave, .polar, .valueOutput, .bufferOutput, .audioOutput, .other]

/-- The name of a kind. -/
def name : KindName → String
  | .input => "input"
  | .constant => "constant"
  | .math => "math"
  | .wave => "wave"
  | .polar => "polar"
  | .valueOutput => "value_output"
  | .bufferOutput => "buffer_output"
  | .audioOutput => "audio_output"
  | .other => "other"

/-- The kind that a value names or numbers. -/
def ofValue : Value → Except Malformed KindName
  | .string s =>
    match all.find? fun k => k.name == s with
    | some k => .ok k
    | none => .error (.unknownVariant s (all.map name))
  | .number (.integer i) =>
    if i < 0 then .error (.invalidType (.integer i) .variantName)
    else
      match all[i.toNat]? with
      | some k => .ok k
      | none => .error (.invalidValue (.integer i) .variantIndex)
  | value => .error (.invalidType value.found .variantName)

/-- The kind among the members of a node. -/
def ofMembers (members : List (String × Value)) : Except Malformed KindName :=
  match members.filter fun m => m.1 == "kind" with
  | [] => .error (.missingField "kind")
  | [(_, value)] => ofValue value
  | (_, value) :: _ => do
    let _ ← ofValue value
    throw (.duplicateField "kind")

end KindName

/-! ### The payload of a kind -/

/-- The type of a member of a payload. -/
inductive Shape where
  | text
  | number
  | numbers
deriving DecidableEq

/-- A member of a payload. -/
inductive Part where
  | text (value : String)
  | number (value : Binary64)
  | numbers (values : List Binary64)
deriving DecidableEq

/-- The members of the payload of a kind. -/
def KindName.fields : KindName → List (String × Shape)
  | .input => [("name", .text)]
  | .constant => [("value", .number)]
  | .math => [("op", .text), ("params", .numbers)]
  | .wave => [("wave", .text), ("phase", .number)]
  | .polar => [("op", .text), ("center_x", .number), ("center_y", .number)]
  | .valueOutput | .bufferOutput | .audioOutput => []
  | .other => [("tag", .text)]

/-- A value as a float. -/
def floatValue : Value → Except Malformed Binary64
  | .number n => .ok n.toBinary64
  | value => .error (.invalidType value.found .number)

/-- A value as a member of a type. -/
def Shape.part : Shape → Value → Except Malformed Part
  | .text, .string s => .ok (.text s)
  | .text, value => .error (.invalidType value.found .string)
  | .number, value => return .number (← floatValue value)
  | .numbers, .sequence values => return .numbers (← values.mapM floatValue)
  | .numbers, value => .error (.invalidType value.found .sequence)

/-- The parts of a payload among the members of a node, in the order in which they stand. -/
def partsOf (fields : List (String × Shape)) :
    List (String × Part) → List (String × Value) → Except Malformed (List (String × Part))
  | parts, [] => .ok parts
  | parts, (key, value) :: rest =>
    match fields.lookup key with
    | none => partsOf fields parts rest
    | some shape =>
      if (parts.lookup key).isSome then .error (.duplicateField key)
      else do partsOf fields (parts ++ [(key, ← shape.part value)]) rest

/-- A text that has no default. -/
def requiredText (parts : List (String × Part)) (key : String) : Except Malformed String :=
  match parts.lookup key with
  | some (.text s) => .ok s
  | _ => .error (.missingField key)

/-- A float that has no default. -/
def requiredNumber (parts : List (String × Part)) (key : String) : Except Malformed Binary64 :=
  match parts.lookup key with
  | some (.number v) => .ok v
  | _ => .error (.missingField key)

/-- A float that is zero by default. -/
def numberOrZero (parts : List (String × Part)) (key : String) : Binary64 :=
  match parts.lookup key with
  | some (.number v) => v
  | _ => .zero false

/-- Floats that are none by default. -/
def numbersOrNone (parts : List (String × Part)) (key : String) : List Binary64 :=
  match parts.lookup key with
  | some (.numbers vs) => vs
  | _ => []

/-- The kind of a name with the parts of its payload. -/
def KindName.withParts (parts : List (String × Part)) : KindName → Except Malformed Kind
  | .input => return .input (← requiredText parts "name")
  | .constant => return .constant (← requiredNumber parts "value")
  | .math => return .math (← requiredText parts "op") (numbersOrNone parts "params")
  | .wave => return .wave (← requiredText parts "wave") (numberOrZero parts "phase")
  | .polar =>
    return .polar (← requiredText parts "op") (numberOrZero parts "center_x")
      (numberOrZero parts "center_y")
  | .valueOutput => .ok .valueOutput
  | .bufferOutput => .ok .bufferOutput
  | .audioOutput => .ok .audioOutput
  | .other => return .other (← requiredText parts "tag")

/-- The kind of a node, from the members that were set aside. -/
def kindOf (members : List (String × Value)) : Except Malformed Kind := do
  let name ← KindName.ofMembers members
  let parts ← partsOf name.fields [] members
  name.withParts parts

end NodeGraph.Document
