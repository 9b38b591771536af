import NodeGraph.Document.Payload

/-!
# Nodes in a document

A node is an object. Its id, domain and inputs are read where they stand; its other members are set
aside until its end, when the kind is made out of them.
-/

namespace NodeGraph.Document

/-! ### Ids and domains -/

/-- The id of a node: a whole number of 32 bits. -/
def nodeId : Reader NodeId := fun text =>
  let numeral (negative : Bool) (text : List Char) : Except Malformed (NodeId × List Char) := do
    let (n, rest) ← number negative text
    match n with
    | .integer i =>
      if 0 ≤ i ∧ i < 4294967296 then return (⟨UInt32.ofNat i.toNat⟩, rest)
      else throw (.invalidValue (.integer i) .nodeId)
    | .float v => throw (.invalidType (.float v) .nodeId)
  match skipBlanks text with
  | [] => .error .endInValue
  | '-' :: rest => numeral true rest
  | c :: rest =>
    if c.isDigit then numeral false (c :: rest) else .error (mismatch .nodeId (c :: rest))

/-- The domain of a name. -/
def domainOf (name : String) : Except Malformed Domain :=
  if name = "control" then .ok .control
  else if name = "visual" then .ok .visual
  else .error (.unknownVariant name ["control", "visual"])

/-- The key of an object that stands for a domain: its name. -/
def domainKey : Reader Domain := fun text =>
  match skipBlanks text with
  | [] => .error .endInObject
  | '"' :: rest => do
    let (name, rest) ← string rest
    return (← domainOf name, rest)
  | '\x7d' :: _ => .error .expectedValue
  | _ => .error .keyNotString

/-- The value that says nothing. -/
def nothing (text : List Char) : Except Malformed (List Char) :=
  match skipBlanks text with
  | [] => .error .endInValue
  | 'n' :: rest => word ['u', 'l', 'l'] rest
  | text => .error (mismatch .unit text)

/-- A domain: its name, or an object with the name as its only key and nothing as its value. -/
def domain : Reader Domain := fun text =>
  match skipBlanks text with
  | [] => .error .endInValue
  | '"' :: rest => do
    let (name, rest) ← string rest
    return (← domainOf name, rest)
  | '\x7b' :: rest => do
    let (d, rest) ← domainKey rest
    let rest ← nothing (← colon rest)
    match skipBlanks rest with
    | [] => throw .endInObject
    | '\x7d' :: rest => return (d, rest)
    | _ => throw .expectedValue
  | _ => .error .expectedValue

/-! ### Nodes -/

/-- A list of what a reader reads. -/
def listOf {α : Type} (item : Reader α) : Reader (List α) := fun text =>
  match skipBlanks text with
  | [] => .error .endInValue
  | '[' :: rest => items item rest
  | text => .error (mismatch .sequence text)

/-- What is known of a node before its end. -/
structure Draft where
  id : Option NodeId
  domain : Option Domain
  inputs : Option (List NodeId)
  /-- The members that were set aside. -/
  others : List (String × Value)

/-- How many more brackets may be open inside a member of a node. -/
def valueRoom : Nat := 124

/-- A member of a node. -/
def nodeMember (draft : Draft) (key : String) : Reader Draft := fun text =>
  if key = "id" then
    if draft.id.isSome then .error (.duplicateField key)
    else do
      let (id, rest) ← nodeId (← colon text)
      return ({ draft with id := some id }, rest)
  else if key = "domain" then
    if draft.domain.isSome then .error (.duplicateField key)
    else do
      let (d, rest) ← domain (← colon text)
      return ({ draft with domain := some d }, rest)
  else if key = "inputs" then
    if draft.inputs.isSome then .error (.duplicateField key)
    else do
      let (inputs, rest) ← listOf nodeId (← colon text)
      return ({ draft with inputs := some inputs }, rest)
  else do
    let (x, rest) ← value valueRoom (← colon text)
    return ({ draft with others := draft.others ++ [(key, x)] }, rest)

/-- The node of all its members. Without a domain it is a control node, and without inputs it has
none. -/
def Draft.finish (draft : Draft) : Except Malformed Node := do
  match draft.id with
  | none => throw (.missingField "id")
  | some id =>
    let kind ← kindOf draft.others
    return ⟨id, draft.domain.getD .control, kind, draft.inputs.getD []⟩

/-- A node. -/
def node : Reader Node := fun text =>
  match skipBlanks text with
  | [] => .error .endInValue
  | '\x7b' :: rest => do
    let (draft, rest) ← members nodeMember ⟨none, none, none, []⟩ rest
    return (← draft.finish, rest)
  | text => .error (mismatch .node text)

end NodeGraph.Document
