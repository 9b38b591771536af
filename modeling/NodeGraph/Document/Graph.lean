import NodeGraph.Document.Node
import NodeGraph.Document.Skip
import NodeGraph.Graph

/-!
# Documents of graphs

The document of a graph is an object with the list of its nodes under the key `nodes`, or a list
with that list as its only element. Other keys of the object are passed over. Nothing may follow the
document.

A graph needs an id after the greatest id of its nodes, so a document with a node of the greatest id
there is gives no graph, although nothing is wrong with its text; this is found before what follows
the document is looked at.
-/

namespace NodeGraph.Document

/-- Why a text gives no graph. -/
inductive LoadFault where
  /-- It is not the document of a graph. -/
  | malformed (fault : Malformed)
  /-- There is no id after the greatest one of its nodes. -/
  | outOfIds
deriving DecidableEq

/-- A member of the object. -/
def graphMember (nodes : Option (List Node)) (key : String) : Reader (Option (List Node)) :=
  fun text =>
    if key = "nodes" then
      if nodes.isSome then .error (.duplicateField key)
      else do
        let (nodes, rest) ← listOf node (← colon text)
        return (some nodes, rest)
    else do
      let rest ← skipValue (← colon text)
      return (nodes, rest)

/-- The end of the list form of a document. -/
def listEnd (text : List Char) : Except Malformed (List Char) :=
  match skipBlanks text with
  | [] => .error .endInList
  | ']' :: rest => .ok rest
  | ',' :: rest =>
    match skipBlanks rest with
    | ']' :: _ => .error .trailingComma
    | _ => .error .trailingCharacters
  | _ => .error .trailingCharacters

/-- The nodes of a document. -/
def nodes : Reader (List Node) := fun text =>
  match skipBlanks text with
  | [] => .error .endInValue
  | '\x7b' :: rest => do
    let (nodes, rest) ← members graphMember none rest
    match nodes with
    | none => throw (.missingField "nodes")
    | some nodes => return (nodes, rest)
  | '[' :: rest =>
    match skipBlanks rest with
    | [] => .error .endInList
    | ']' :: _ => .error (.invalidLength 0 .graphItem)
    | rest => do
      let (nodes, rest) ← listOf node rest
      return (nodes, ← listEnd rest)
  | text => .error (mismatch .graph text)

/-- The graph of a document. -/
def load (text : String) : Except LoadFault Graph :=
  match nodes text.toList with
  | .error fault => .error (.malformed fault)
  | .ok (nodes, rest) =>
    match Graph.ofNodes? nodes with
    | none => .error .outOfIds
    | some g =>
      match skipBlanks rest with
      | [] => .ok g
      | _ => .error (.malformed .trailingCharacters)

end NodeGraph.Document
